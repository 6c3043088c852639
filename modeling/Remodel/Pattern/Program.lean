import Remodel.Pattern.Basic

/-!
# Programs of patterns

A pattern is compiled into instructions.  An instruction takes a character, checks a
condition, or splits into two ways of which the first is preferred.

## Strategy

Code is emitted from the end backwards: a part is compiled knowing where to go on
after it.  A loop reserves the place of its split before its body is compiled, and a
loop over a body that may match nothing tries the body once before it may be left
out, so that preferences stay those of the tree.
-/

namespace Remodel.Pattern

/-- An instruction, with the places of the instructions that follow it. -/
inductive Instruction
  | take (set : Unicode.CodeSet) (next : Nat)
  | check (condition : Look) (next : Nat)
  | split (preferred other : Nat)
  | accept
  deriving Repr, Inhabited

/-- The instructions emitted so far. -/
abbrev Code := Array Instruction

/-- Emits an instruction and gives its place. -/
def emit (instruction : Instruction) (code : Code) : Nat × Code :=
  (code.size, code.push instruction)

/-- The split of a repetition into one more time and going on. -/
def branch (greedy : Bool) (again next : Nat) : Instruction :=
  if greedy then .split again next else .split next again

/-- Emits a part several times, one after another, from the last to the first. -/
def emitTimes (part : Nat → Code → Nat × Code) : Nat → Nat → Code → Nat × Code
  | 0, next, code => (next, code)
  | times + 1, next, code =>
    let (start, code) := part next code
    emitTimes part times start code

/-- Emits a part up to so many times; every time it may be left out with all that
follow it. -/
def emitUpTo (greedy : Bool) (part : Nat → Code → Nat × Code) (next : Nat) :
    Nat → Nat → Code → Nat × Code
  | 0, start, code => (start, code)
  | times + 1, start, code =>
    let (again, code) := part start code
    let (start, code) := emit (branch greedy again next) code
    emitUpTo greedy part next times start code

/-- Emits a part one or more times; gives the place of the part and that of the split
after it. -/
def emitLoop (greedy : Bool) (part : Nat → Code → Nat × Code) (next : Nat) (code : Code) :
    Nat × Nat × Code :=
  let (loop, code) := emit .accept code
  let (start, code) := part loop code
  (start, loop, code.setIfInBounds loop (branch greedy start next))

/-- Emits a pattern that goes on at `next`, and gives the place where it starts. -/
def compileTo : Pattern → Nat → Code → Nat × Code
  | empty, next, code => (next, code)
  | chars set, next, code => emit (.take set next) code
  | look condition, next, code => emit (.check condition next) code
  | both first second, next, code =>
    let (middle, code) := second.compileTo next code
    first.compileTo middle code
  | either first second, next, code =>
    let (b, code) := second.compileTo next code
    let (a, code) := first.compileTo next code
    emit (.split a b) code
  | iterate least (some most) greedy body, next, code =>
    let (start, code) := emitUpTo greedy body.compileTo next (most - least) next code
    emitTimes body.compileTo least start code
  | iterate 0 none greedy body, next, code =>
    let (start, loop, code) := emitLoop greedy body.compileTo next code
    if body.canBeEmpty then emit (branch greedy start next) code else (loop, code)
  | iterate (least + 1) none greedy body, next, code =>
    let (start, _, code) := emitLoop greedy body.compileTo next code
    emitTimes body.compileTo least start code

/-- A compiled pattern: its instructions and the place of the first. -/
structure Program where
  code : Code
  start : Nat
  deriving Inhabited

/-- Compiles a pattern. -/
def compile (pattern : Pattern) : Program :=
  let (start, code) := pattern.compileTo 0 #[.accept]
  ⟨code, start⟩

end Remodel.Pattern
