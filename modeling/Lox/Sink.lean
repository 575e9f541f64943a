set_option autoImplicit false

/-! Where text goes. A sink may accept only so many bytes in all: a text that does not fit is
accepted up to the limit, and writing it fails. -/

namespace Lox

inductive SinkFailure where
  | full
  | flush
deriving Repr, DecidableEq, Inhabited

def SinkFailure.message : SinkFailure → String
  | full => "sink full"
  | flush => "flush failed"

/-- The bytes accepted so far, the number of bytes accepted in all if that is bounded, and whether
flushing fails. -/
structure Sink where
  accepted : ByteArray
  limit : Option Nat
  flushFails : Bool

namespace Sink

def unlimited : Sink := ⟨ByteArray.empty, none, false⟩

instance : Inhabited Sink := ⟨unlimited⟩

def room? (sink : Sink) : Option Nat :=
  sink.limit.map (· - sink.accepted.size)

/-- Takes a text, or as much of it as fits. -/
def accept (sink : Sink) (text : String) : Sink :=
  match sink.room? with
  | none => { sink with accepted := sink.accepted ++ text.toUTF8 }
  | some room => { sink with accepted := sink.accepted ++ text.toUTF8.extract 0 room }

def failure? (sink : Sink) (text : String) : Option SinkFailure :=
  match sink.room? with
  | none => none
  | some room => if text.utf8ByteSize ≤ room then none else some .full

/-- The text of bytes without their last few, at most `surplus`, of which as few as possible are
dropped and show as one replacement character. -/
def decodeCut (bytes : ByteArray) : Nat → Option String
  | 0 => none
  | surplus + 1 =>
    match decodeCut bytes surplus with
    | some text => some text
    | none => (String.fromUTF8? (bytes.extract 0 (bytes.size - (surplus + 1)))).map (· ++ "\uFFFD")

/-- Bytes as text; a character that was cut off at the end, which has at most three bytes left,
shows as a replacement character. -/
def decode (bytes : ByteArray) : String :=
  match String.fromUTF8? bytes with
  | some text => text
  | none => (decodeCut bytes 3).getD ""

def text (sink : Sink) : String :=
  decode sink.accepted

/-- The text accepted after the first `start` bytes. -/
def textFrom (sink : Sink) (start : Nat) : String :=
  decode (sink.accepted.extract start sink.accepted.size)

def flushFailure? (sink : Sink) : Option SinkFailure :=
  if sink.flushFails then some .flush else none

def deliveryFailure? (sink : Sink) (text : String) : Option SinkFailure :=
  match sink.failure? text with
  | some failure => some failure
  | none => sink.flushFailure?

end Sink
end Lox
