import Mathlib.Data.UInt

namespace ReactorRpc

abbrev Fd := Nat

def EPOLLIN : UInt32 := 1
def EPOLLOUT : UInt32 := 4

/-- `Channel`: a descriptor and the events it asks epoll for. -/
structure Channel where
  fd : Fd
  events : UInt32 := 0
  deriving DecidableEq

namespace Channel

def isWriting (ch : Channel) : Bool := ch.events &&& EPOLLOUT ≠ 0

def enableReading (ch : Channel) : Channel := { ch with events := ch.events ||| EPOLLIN }
def enableWriting (ch : Channel) : Channel := { ch with events := ch.events ||| EPOLLOUT }
def disableWriting (ch : Channel) : Channel := { ch with events := ch.events &&& ~~~EPOLLOUT }

/-- `remove`: it clears the events and leaves the descriptor to `update`. -/
def remove (ch : Channel) : Channel := { ch with events := 0 }

@[simp] theorem enableReading_fd (ch : Channel) : ch.enableReading.fd = ch.fd := rfl
@[simp] theorem enableWriting_fd (ch : Channel) : ch.enableWriting.fd = ch.fd := rfl
@[simp] theorem disableWriting_fd (ch : Channel) : ch.disableWriting.fd = ch.fd := rfl
@[simp] theorem remove_fd (ch : Channel) : ch.remove.fd = ch.fd := rfl

@[simp] theorem isWriting_enableWriting (ch : Channel) : ch.enableWriting.isWriting = true := by
  have bit : (ch.events ||| EPOLLOUT) &&& EPOLLOUT = EPOLLOUT := by
    apply UInt32.toBitVec_inj.mp
    ext i
    simp only [UInt32.toBitVec_and, UInt32.toBitVec_or, BitVec.getElem_and, BitVec.getElem_or]
    cases ch.events.toBitVec[i] <;> cases EPOLLOUT.toBitVec[i] <;> rfl
  simp only [isWriting, enableWriting, bit]
  decide

end Channel
end ReactorRpc
