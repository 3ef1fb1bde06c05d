/-!
Contract: the events of the running engine that may be subscribed to.

A set of hooks is five bits, one per hook, and is shown and exchanged as such.
The bits stand for a set of flags as a library of flags offers it: its algebra
is that of the bits, and other bits are dropped when a byte is read.

Owns:
- hooks, their names and bits;
- the algebra of sets of hooks.
-/

namespace InstrumentScope

inductive Hook where
  | blockStart
  | instructionStart
  | blockEnd
  | moduleTransition
  | instructionExecute
deriving DecidableEq, Repr

namespace Hook

/-- All hooks, in the order of their bits. -/
def all : List Hook :=
  [blockStart, instructionStart, blockEnd, moduleTransition, instructionExecute]

def position : Hook → Nat
  | blockStart => 0
  | instructionStart => 1
  | blockEnd => 2
  | moduleTransition => 3
  | instructionExecute => 4

/-- The name under which a hook is subscribed to. -/
def text : Hook → String
  | blockStart => "BLOCK_START"
  | instructionStart => "INSTRUCTION_START"
  | blockEnd => "BLOCK_END"
  | moduleTransition => "MODULE_TRANSITION"
  | instructionExecute => "INSTRUCTION_EXECUTE"

end Hook

/-- A set of hooks, one bit each. -/
structure HookSet where
  bits : BitVec 5
deriving DecidableEq, Repr

namespace HookSet

def empty : HookSet :=
  ⟨0⟩

def full : HookSet :=
  ⟨BitVec.allOnes 5⟩

def ofList (hooks : List Hook) : HookSet :=
  ⟨hooks.foldl (fun bits hook => bits ||| BitVec.twoPow 5 hook.position) 0⟩

/-- The set with the given bits, bits that stand for no hook left out. -/
def truncate (byte : UInt8) : HookSet :=
  ⟨byte.toBitVec.setWidth 5⟩

/-- Every bit of the byte stands for a hook. -/
def isKnown (byte : UInt8) : Bool :=
  byte &&& 0xe0 == 0

def mem (set : HookSet) (hook : Hook) : Bool :=
  set.bits.getLsbD hook.position

/-- The hooks of the set, in the order of their bits. -/
def toList (set : HookSet) : List Hook :=
  Hook.all.filter set.mem

def isEmpty (set : HookSet) : Bool :=
  set == empty

def isFull (set : HookSet) : Bool :=
  set == full

def union (set other : HookSet) : HookSet :=
  ⟨set.bits ||| other.bits⟩

def inter (set other : HookSet) : HookSet :=
  ⟨set.bits &&& other.bits⟩

def minus (set other : HookSet) : HookSet :=
  ⟨set.bits &&& ~~~other.bits⟩

def symmetricDifference (set other : HookSet) : HookSet :=
  ⟨set.bits ^^^ other.bits⟩

def complement (set : HookSet) : HookSet :=
  ⟨~~~set.bits⟩

/-- Every hook of the second set is in the first. -/
def contains (set other : HookSet) : Bool :=
  set.inter other == other

def intersects (set other : HookSet) : Bool :=
  !(set.inter other).isEmpty

end HookSet

end InstrumentScope
