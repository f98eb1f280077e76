import ContractHost.Diff.Frame
import ContractHost.Message
import ContractHost.Store.Basic

/-!
# Frames and the call stack

A frame belongs to one running call.  It holds the message that the call runs, what the call has
changed so far, and the byte buffers lent to its engine, which are given back all at once when the
frame ends.

Calls nest, so frames form a stack.  Only the frame on top is written to.  Reading looks through
the frames from the top down to the root and ends at the base store: the nearest frame that says
something about a slot decides its value, and balance changes add up along the whole stack.
-/

namespace ContractHost

structure Frame where
  message : CallMessage
  diff : FrameDiff := {}
  /-- The buffers lent to its engine, newest first. -/
  lent : List Bytes := []
deriving DecidableEq

namespace Frame

/-- How many calls this one is nested in, according to its message. -/
def depth (frame : Frame) : UInt32 := frame.message.depth

/-- Lends a buffer with the given contents. -/
def lend (frame : Frame) (bytes : Bytes) : Frame := { frame with lent := bytes :: frame.lent }

def lentBytes (frame : Frame) : Nat := frame.lent.flatten.length

def modifyDiff (frame : Frame) (change : FrameDiff → FrameDiff) : Frame :=
  { frame with diff := change frame.diff }

end Frame

structure CallStack where
  /-- The frames, the one on top first and the root last. -/
  frames : List Frame := []
deriving DecidableEq

namespace CallStack

def empty : CallStack := {}

def size (stack : CallStack) : Nat := stack.frames.length

def isEmpty (stack : CallStack) : Bool := stack.frames.isEmpty

def current? (stack : CallStack) : Option Frame := stack.frames.head?

def push (stack : CallStack) (frame : Frame) : CallStack := ⟨frame :: stack.frames⟩

/-- Changes the frame on top, if there is one. -/
def modifyCurrent (stack : CallStack) (change : Frame → Frame) : CallStack :=
  match stack.frames with
  | [] => stack
  | frame :: below => ⟨change frame :: below⟩

/-- Takes frames off until `size` are left, and returns the last one taken off. -/
def popTo (stack : CallStack) (size : Nat) : Option Frame × CallStack :=
  let surplus := stack.frames.length - size
  ((stack.frames.take surplus).getLast?, ⟨stack.frames.drop surplus⟩)

/-- The number of bytes lent to engines by all frames. -/
def lentBytes (stack : CallStack) : Nat := (stack.frames.flatMap Frame.lent).flatten.length

/-! ## What the frame on top sees -/

/-- The value of a slot: that of the nearest frame which wrote it, or that of the store. -/
def slot (stack : CallStack) (store : Store) (address : Address) (key : Word) : Word :=
  (stack.frames.findSome? fun frame => frame.diff.slot? address key).getD
    (store.slot address key)

/-- The balance change of an account along the stack, added up from the top downwards. -/
def balanceDelta (stack : CallStack) (address : Address) : Delta :=
  (stack.frames.filterMap fun frame => frame.diff.balances[address]?).foldl Delta.add Delta.zero

/-- Some frame touched the account through its storage or its balance. -/
def touches (stack : CallStack) (address : Address) : Bool :=
  stack.frames.any fun frame => frame.diff.touches address

/-- Some frame below the one on top touched the account. -/
def touchesBelow (stack : CallStack) (address : Address) : Bool :=
  stack.frames.tail.any fun frame => frame.diff.touches address

/-- Some frame registered the account for destruction. -/
def isDestroyed (stack : CallStack) (address : Address) : Bool :=
  stack.frames.any fun frame => frame.diff.destroyed.contains address

/-- Some frame accessed the account. -/
def isWarmAccount (stack : CallStack) (address : Address) : Bool :=
  stack.frames.any fun frame => frame.diff.warmAccounts.contains address

/-- Some frame accessed the slot. -/
def isWarmSlot (stack : CallStack) (address : Address) (key : Word) : Bool :=
  stack.frames.any fun frame => frame.diff.warmSlots.contains ⟨address, key⟩

end CallStack

end ContractHost
