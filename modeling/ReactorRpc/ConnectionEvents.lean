import ReactorRpc.Channel
import ReactorRpc.ServerStream

namespace ReactorRpc
open Streams
universe u

def EPOLLERR : UInt32 := 0x008
def EPOLLHUP : UInt32 := 0x010
def EPOLLRDHUP : UInt32 := 0x2000

/-- `revents_ & mask` as a condition. -/
def hasEvents (revents mask : UInt32) : Bool := revents &&& mask != 0

/-- The four callbacks of a channel. -/
inductive Callback
  | read
  | write
  | close
  | error
  deriving DecidableEq

/-- `Channel::handleEvent` on any state: `touch` is what happens when it reads
members of the channel, `run` what a callback does. All four callbacks are set. -/
def Channel.handleEvent {S : Type u} (touch : S → S) (run : Callback → S → S) (revents : UInt32) (s : S) : S :=
  let s := touch s
  if hasEvents revents EPOLLHUP && !hasEvents revents EPOLLIN then run .close (touch s)
  else
    let s := touch s
    if hasEvents revents (EPOLLERR ||| EPOLLRDHUP) then run .error (touch s)
    else
      let s := touch s
      let s := if hasEvents revents EPOLLIN then run .read (touch s) else s
      let s := touch s
      if hasEvents revents EPOLLOUT then run .write (touch s) else s

/-- The callbacks that the constructor of `TcpConnection` sets. -/
def TcpConnection.callbacks {S : Type u} (handleRead handleWrite handleClose : S → S) : Callback → S → S
  | .read => handleRead
  | .write => handleWrite
  | .close => handleClose
  | .error => handleClose

/-- `handleClose`: it runs the close callback, if one is set. -/
def TcpConnection.handleClose {S : Type u} (closeCallback : Option (S → S)) (s : S) : S :=
  match closeCallback with
  | some callback => callback s
  | none => s

/-- What follows `readFd` in `handleRead`. -/
def TcpConnection.afterRead {S : Type u} (messageCallback handleClose : S → S)
    (result : Except Buffer.Errno Bytes) (s : S) : S :=
  match readEvent result with
  | .message => messageCallback s
  | .close => handleClose s
  | .ignored => s

/-- The events for which the channel runs its close or its error callback. -/
def hangsUp (revents : UInt32) : Bool :=
  hasEvents revents EPOLLHUP && !hasEvents revents EPOLLIN ||
    hasEvents revents (EPOLLERR ||| EPOLLRDHUP)

/-- An event, with what `readFd` would return, for which `handleClose` runs. -/
def endsConnection (revents : UInt32) (result : Except Buffer.Errno Bytes) : Bool :=
  hangsUp revents || hasEvents revents EPOLLIN && readEvent result == .close

section Dispatch
variable {S : Type u} {touch : S → S} {run : Callback → S → S} {revents : UInt32} {s : S}

/-- On a hang-up or an error the channel runs one callback and returns. -/
theorem Channel.handleEvent_hangsUp (quiet : touch s = s) (gone : hangsUp revents = true) :
    Channel.handleEvent touch run revents s = run .close s ∨
      Channel.handleEvent touch run revents s = run .error s := by
  simp only [Channel.handleEvent, quiet]
  split
  · exact .inl rfl
  · rename_i there
    rw [hangsUp, Bool.eq_false_iff.mpr there, Bool.false_or] at gone
    rw [if_pos gone]
    exact .inr rfl

/-- Otherwise it goes on with its members after the read callback. -/
theorem Channel.handleEvent_served (quiet : touch s = s) (there : hangsUp revents = false) :
    Channel.handleEvent touch run revents s =
      (let s := touch (if hasEvents revents EPOLLIN then run .read s else s)
       if hasEvents revents EPOLLOUT then run .write (touch s) else s) := by
  obtain ⟨alive, sound⟩ := Bool.or_eq_false_iff.mp there
  simp only [Channel.handleEvent, quiet, alive, sound, Bool.false_eq_true, if_false]

end Dispatch
end ReactorRpc
