import StreamSocket.L1Encoding.Wrap32
import StreamSocket.L2Machine.ByteStream

/-!
# The two messages between TCPSender and TCPReceiver

A `TCPSenderMessage` carries a piece of the stream at a wrapped sequence
number, a `TCPReceiverMessage` the acknowledgment and the 16-bit window.
-/
namespace StreamSocket.L2

open L1

/-- mirrors src/util/tcp_sender_message.hh:24-29 -/
structure TCPSenderMessage where
  seqno : Wrap32 := ⟨0⟩
  SYN : Bool := false
  payload : Bytes := []
  FIN : Bool := false
  deriving DecidableEq, Repr

/-- mirrors src/util/tcp_sender_message.hh:32 -/
def TCPSenderMessage.sequenceLength (m : TCPSenderMessage) : Nat :=
  m.SYN.toNat + m.payload.length + m.FIN.toNat

/-- The sequence numbers a list of messages occupies. -/
def totalLength (ms : List TCPSenderMessage) : Nat := (ms.map (·.sequenceLength)).sum

@[simp] theorem totalLength_nil : totalLength [] = 0 := rfl

@[simp] theorem totalLength_cons (m : TCPSenderMessage) (ms : List TCPSenderMessage) :
    totalLength (m :: ms) = m.sequenceLength + totalLength ms := by simp [totalLength]

@[simp] theorem totalLength_append (xs ys : List TCPSenderMessage) :
    totalLength (xs ++ ys) = totalLength xs + totalLength ys := by simp [totalLength]

/-- mirrors src/util/tcp_receiver_message.hh:20-24 -/
structure TCPReceiverMessage where
  ackno : Option Wrap32 := none
  windowSize : UInt16 := 0
  deriving DecidableEq, Repr

end StreamSocket.L2
