import Descent.Proofs.Arena.Arrangement

/-!
# Rules in arenas and rules that are built anew

A rule that refers to itself can be kept in an arena, where its name stands for a handle that is
looked up at each use, or it can be built anew at each use of its name. The two come to the same
(`Session.thunk_agrees`).
-/

namespace Descent.Session

/-- Let a rule be declared in a fresh arena, and then be defined; other names in its body stand for
other handles. What its name stands for, or the parser that is rooted, comes to the same as the
parser in which its name stands for the body anew: the runs on a text end in the same way, if they
end, and then with the same events. That parser is the body, in which the name stands for it. -/
theorem thunk_agrees (earlier : List Step) (name : String) (body : Grammar) (s : Text) :
    let t := start.after (earlier ++ [.create, .declare name, .define name (.ok body)])
    let scope := Store.bodyScope t.handles t.store.parser
    let thunk := (Grammar.fix name body).parser scope
    (thunk s).Agrees (body.parser (scope.bind name thunk) s) ∧
      ∃ h, Table.get? t.handles name = some h ∧ Table.get? t.rooted name = some h ∧
        (thunk s).Agrees (t.store.parser h s) := by
  intro t scope thunk
  obtain ⟨id, hcreate⟩ := HoldsArena.create (owned_start.after earlier)
  obtain ⟨hdeclare, hinsert⟩ := hcreate.declare name
  have hname := (congrArg (Table.get? · name) hinsert).trans (Table.get?_insert_self ..)
  obtain ⟨hdefine, hhandles, hrooted⟩ := hdeclare.define hname rfl body
  have ht : t = (((((start.after earlier).step .create).1.step (.declare name)).1.step
      (.define name (.ok body)))).1 := after_append ..
  rw [← ht] at hdefine hhandles hrooted
  have hhandle : Table.get? t.handles name = some ⟨id, 0⟩ := hhandles ▸ hname
  have hholds : t.store.Holds t.handles [.defined name body] := by
    intro d hd
    obtain rfl := List.mem_singleton.mp hd
    refine ⟨⟨id, 0⟩, hhandle, ?_⟩
    rw [hdefine.body?_eq, hhandles]
    rfl
  have hregular := t.store.regular_bodyScope t.handles
  refine ⟨Grammar.fix_agrees_body hregular name body s, ⟨id, 0⟩, hhandle, hrooted, ?_⟩
  exact (Grammar.fix_agrees_rules hregular name body s).trans
    (hholds.agrees (List.nodup_singleton name) (List.mem_singleton_self _) hhandle s)

end Descent.Session
