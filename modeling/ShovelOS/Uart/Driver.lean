import ShovelOS.Fifo.Buffer
import ShovelOS.Library.Transition

namespace ShovelOS
namespace Uart

open Fifo

/-!
# The transmit path of the serial driver (`drivers/ns/nRF51822/uart/uart.c`)

Threads put bytes into the write buffer inside a critical section, and
enable the TX-ready interrupt after they have left it.  The interrupt
handler moves one byte from the buffer to the `TXD` register when the
hardware is ready for it, and disables the interrupt when there is none.

The parts that run without being interrupted are the steps of a run: a
critical section, the write to `INTENSET`, the test at the end of the outer
loop, and one call of the handler.  The hardware sets its event registers at
any time.  The handler may be entered at any time as well, since an
interrupt that has become pending is served even when its cause is gone, and
since it is entered for received bytes too.

Next to the driver, the state keeps the bytes that `fifo_buffer_putb`
accepted and the bytes written to `TXD`, in order.
-/

def nonblock : UInt32 := 1

/-- A call of `_write` under way: the flags it has read, the bytes from
`vbuffer` on, and the number of bytes before it. -/
structure Writing where
  flags : UInt32
  rest : List UInt8
  written : Nat

/-- Where a thread is: outside `_write` with the last result, before its
critical section, between it and the write to `INTENSET`, or behind that. -/
inductive Writer where
  | returned (count : Nat)
  | locking (call : Writing)
  | enabling (call : Writing)
  | deciding (call : Writing)

/-- The driver, its registers, and the threads.  Of the events and of
`INTEN`, the state keeps the bits that the driver uses. -/
structure Driver (ι : Type) where
  writeBuffer : FifoBuffer
  memory : Memory
  flags : UInt32
  rxdrdy : Bool
  txdrdy : Bool
  intenRxReady : Bool
  intenTxReady : Bool
  writers : ι → Writer
  accepted : List UInt8
  txd : List UInt8

variable {ι : Type}

def _IRQ (s : Driver ι) : Driver ι :=
  let s := if s.rxdrdy then { s with rxdrdy := false } else s
  if s.txdrdy then
    let (ret, writeBuffer, b) := fifoBufferGetb s.writeBuffer s.memory 0
    if ret = fifoBufferGetSuccess then
      { s with writeBuffer := writeBuffer, txdrdy := false, txd := s.txd ++ [b] }
    else { s with writeBuffer := writeBuffer, intenTxReady := false }
  else s

/-- The inner loop of `_write`: the buffer and its memory, the bytes that
were accepted, and those that were not. -/
def putBytes (buffer : FifoBuffer) (memory : Memory) :
    List UInt8 → FifoBuffer × Memory × List UInt8 × List UInt8
  | [] => (buffer, memory, [], [])
  | b :: rest =>
      let (ret, buffer, memory) := fifoBufferPutb buffer memory b
      if ret = fifoBufferPutSuccess then
        let (buffer, memory, accepted, rest) := putBytes buffer memory rest
        (buffer, memory, b :: accepted, rest)
      else (buffer, memory, [], b :: rest)

section Threads

variable [DecidableEq ι]

def Driver.setWriter (s : Driver ι) (thread : ι) (writer : Writer) : Driver ι :=
  { s with writers := Function.update s.writers thread writer }

/-- `_write` up to its first critical section. -/
def enterWrite (s : Driver ι) (inInterrupt : Bool) (vbuffer : List UInt8) : Writer :=
  if inInterrupt then .returned 0
  else if vbuffer = [] then .returned 0
  else .locking ⟨s.flags, vbuffer, 0⟩

def criticalSection (s : Driver ι) (thread : ι) (call : Writing) : Driver ι :=
  let (writeBuffer, memory, accepted, rest) := putBytes s.writeBuffer s.memory call.rest
  { s with
    writeBuffer := writeBuffer
    memory := memory
    accepted := s.accepted ++ accepted
    writers := Function.update s.writers thread
      (.enabling ⟨call.flags, rest, call.written + accepted.length⟩) }

/-- The end of the outer loop of `_write`: return, or yield and go round. -/
def decideWrite (call : Writing) : Writer :=
  if call.rest = [] ∨ call.flags &&& nonblock ≠ 0 then .returned call.written else .locking call

inductive Event (ι : Type) where
  | write (thread : ι) (inInterrupt : Bool) (vbuffer : List UInt8)
  | criticalSection (thread : ι)
  | intenset (thread : ι)
  | decide (thread : ι)
  | irq
  | rxdrdy
  | txdrdy

def step (s : Driver ι) : Event ι → Option (Driver ι)
  | .write thread inInterrupt vbuffer =>
      match s.writers thread with
      | .returned _ => some (s.setWriter thread (enterWrite s inInterrupt vbuffer))
      | _ => none
  | .criticalSection thread =>
      match s.writers thread with
      | .locking call => some (criticalSection s thread call)
      | _ => none
  | .intenset thread =>
      match s.writers thread with
      | .enabling call => some ({ s with intenTxReady := true }.setWriter thread (.deciding call))
      | _ => none
  | .decide thread =>
      match s.writers thread with
      | .deciding call => some (s.setWriter thread (decideWrite call))
      | _ => none
  | .irq => some (_IRQ s)
  | .rxdrdy => some { s with rxdrdy := true }
  | .txdrdy => some { s with txdrdy := true }

end Threads

/-- The state in which `___open___` leaves the driver: the write buffer is
fresh, and no thread is in `_write`.  The registers may hold anything. -/
def opened (bp : Nat) (sz : UInt16) (memory : Memory) (flags : UInt32)
    (rxdrdy txdrdy intenRxReady intenTxReady : Bool) : Driver ι where
  writeBuffer := ⟨bp, 0, 0, sz, 0, sz⟩
  memory := memory
  flags := flags
  rxdrdy := rxdrdy
  txdrdy := txdrdy
  intenRxReady := intenRxReady
  intenTxReady := intenTxReady
  writers := fun _thread => .returned 0
  accepted := []
  txd := []

end Uart
end ShovelOS
