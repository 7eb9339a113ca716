import Descent.Pattern.Expr
import Descent.Text.Snippet

/-!
# Programs of patterns

A pattern is run as a program: instructions that consume a character, test a position, or go on in
two ways of which the first is preferred. A repetition whose body may match the empty text first
tries its body and only then whether to repeat it, so that the preference among its matches is that
of trying one after the other.
-/

namespace Descent.Pattern

/-- An instruction. Instructions name those that follow them by position. -/
inductive Instr where
  | char (ignoreCase : Bool) (c : CharClass) (next : Nat)
  | test (a : Assertion) (next : Nat)
  /-- Go on in two ways, the first preferred. -/
  | fork (first second : Nat)
  /-- The text consumed so far is a match. -/
  | accept
deriving Inhabited

/-- A program: its instructions, and the position at which it starts. -/
structure Program where
  code : Array Instr
  entry : Nat
deriving Inhabited

namespace Program

/-- A compiler of an expression: given the instructions so far and the position to go on at
afterwards, it adds instructions and gives the position at which they start. -/
abbrev Emit : Type := Array Instr → Nat → Array Instr × Nat

def emit (i : Instr) (code : Array Instr) : Array Instr × Nat :=
  let entry := code.size
  (code.push i, entry)

/-- A fork that prefers its first way if it is greedy, and its second otherwise. -/
def forkBy (greedy : Bool) (more done : Nat) : Instr :=
  if greedy then .fork more done else .fork done more

/-- The body so many times in sequence. -/
def emitTimes (body : Emit) : Nat → Emit
  | 0, code, next => (code, next)
  | n + 1, code, next =>
    let (code, entry) := body code next
    emitTimes body n code entry

/-- The body at most so many times. After each run and before the first, the repetition may end. -/
def emitAtMost (greedy : Bool) (body : Emit) (done : Nat) : Nat → Emit
  | 0, code, next => (code, next)
  | n + 1, code, next =>
    let (code, entry) := body code next
    let (code, fork) := emit (forkBy greedy entry done) code
    emitAtMost greedy body done n code fork

/-- The body once or more: after each run, it may run again. The result gives also the position of
the fork. -/
def emitLoop (greedy : Bool) (body : Emit) (code : Array Instr) (next : Nat) :
    Array Instr × Nat × Nat :=
  let (code, fork) := emit (.fork next next) code
  let (code, entry) := body code fork
  (code.setIfInBounds fork (forkBy greedy entry next), entry, fork)

def emitRepeated (r : Repeats) (bodyNullable : Bool) (body : Emit) : Emit := fun code next =>
  match r.most with
  | some most =>
    let (code, entry) := emitAtMost r.greedy body next (most - r.least) code next
    emitTimes body r.least code entry
  | none =>
    let (code, entry, fork) := emitLoop r.greedy body code next
    match r.least with
    | 0 =>
      if bodyNullable then emit (forkBy r.greedy entry next) code
      else (code, fork)
    | least + 1 => emitTimes body least code entry

def emitExpr : Expr → Emit
  | .empty, code, next => (code, next)
  | .char ignoreCase c, code, next => emit (.char ignoreCase c next) code
  | .assertion a, code, next => emit (.test a next) code
  | .seq e f, code, next =>
    let (code, entry) := emitExpr f code next
    emitExpr e code entry
  | .alt e f, code, next =>
    let (code, second) := emitExpr f code next
    let (code, first) := emitExpr e code next
    emit (.fork first second) code
  | .repeated e r, code, next => emitRepeated r e.nullable (emitExpr e) code next

def ofExpr (e : Expr) : Program :=
  let (code, entry) := emitExpr e #[.accept] 0
  ⟨code, entry⟩

/-! ## Running a program -/

/-- Follow instructions that consume nothing, from the positions on the stack. The threads that wait
for a character or have matched are collected, latest first; the preferred ways are followed first,
and no position is followed twice in one round. For that, each position is marked with the last
round in which it was followed. -/
def follow (code : Array Instr) (before after : Option Char) (round : Nat) :
    Nat → List Nat → Array Nat → List Nat → Array Nat × List Nat
  | 0, _, marks, threads => (marks, threads)
  | steps + 1, stack, marks, threads =>
    match stack with
    | [] => (marks, threads)
    | pc :: stack =>
      if marks.getD pc round == round then
        follow code before after round steps stack marks threads
      else
        let marks := marks.setIfInBounds pc round
        match code.getD pc .accept with
        | .fork first second =>
          follow code before after round steps (first :: second :: stack) marks threads
        | .test a next =>
          if a.holds before after then
            follow code before after round steps (next :: stack) marks threads
          else follow code before after round steps stack marks threads
        | _ => follow code before after round steps stack marks (pc :: threads)

/-- Follow instructions from one position. Every instruction is followed once and adds at most two
positions to the stack, which bounds the steps. -/
def followFrom (code : Array Instr) (before after : Option Char) (round pc : Nat)
    (marks : Array Nat) (threads : List Nat) : Array Nat × List Nat :=
  follow code before after round (2 * code.size + 2) [pc] marks threads

/-- Let threads consume a character, in order of preference. A thread that has matched ends the
others after it. The result says whether one has, and gives the marks and the threads after the
character, latest first. -/
def advance (code : Array Instr) (c : Char) (after : Option Char) (round : Nat) :
    List Nat → Array Nat → List Nat → Bool × Array Nat × List Nat
  | [], marks, next => (false, marks, next)
  | pc :: threads, marks, next =>
    match code.getD pc .accept with
    | .char ignoreCase d target =>
      if d.contains ignoreCase c then
        let (marks, next) := followFrom code (some c) after round target marks next
        advance code c after round threads marks next
      else advance code c after round threads marks next
    | .accept => (true, marks, next)
    | _ => advance code c after round threads marks next

/-- Whether one of the threads has matched. -/
def hasMatched (code : Array Instr) (threads : List Nat) : Bool :=
  threads.any fun pc =>
    match code.getD pc .accept with
    | .accept => true
    | _ => false

/-- The length of the preferred match, after `consumed` characters with these threads, and with the
length of the match found before. The rounds are numbered by the characters consumed, from one. -/
def runFrom (code : Array Instr) :
    Text → Nat → List Nat → Array Nat → Option Nat → Option Nat
  | [], consumed, threads, _, found =>
    if hasMatched code threads then some consumed else found
  | c :: rest, consumed, threads, marks, found =>
    if threads.isEmpty then found
    else
      let (matched, marks, next) := advance code c rest.head? (consumed + 2) threads marks []
      let found := if matched then some consumed else found
      runFrom code rest (consumed + 1) next.reverse marks found

/-- The number of characters of the preferred match at the beginning of a text. -/
def matchLength? (p : Program) (input : Text) : Option Nat :=
  let unmarked := Array.replicate p.code.size 0
  let (marks, threads) := followFrom p.code none input.head? 1 p.entry unmarked []
  runFrom p.code input 0 threads.reverse marks none

end Program
end Descent.Pattern
