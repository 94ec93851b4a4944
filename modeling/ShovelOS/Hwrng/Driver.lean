import ShovelOS.Fifo.Drain
import ShovelOS.Library.Transition

namespace ShovelOS
namespace Hwrng

open Fifo

/-!
# The random number driver (`drivers/ns/nRF51822/hwrng/hwrng.c`)

The handler moves a random byte from `VALUE` to the read buffer and clears
`VALRDY`.  With no room it disables the interrupt instead, and keeps the
event.  Threads take bytes out in a critical section, and enable the
interrupt after they have left it.

Threads, handler and hardware take steps in any order, except that no thread
runs while the handler does.  The handler is in two parts, since the hardware
may replace `VALUE` and set `VALRDY` again between its reads and its writes.
It may also be entered when there is nothing to do.

Next to the driver, the state keeps the bytes that the hardware produced, the
bytes that `fifo_buffer_putb` accepted, and the bytes that the threads took
with the threads that took them.
-/

def nonblock : UInt32 := 1

/-- Where a thread is: outside `_read` with its last call, before its first
critical section, between a critical section and the write to `INTENSET`,
behind that, or behind `kthread_yield`. -/
inductive Reader where
  | returned (call : Reading)
  | locking (call : Reading)
  | enabling (call : Reading)
  | deciding (call : Reading)
  | waiting (call : Reading)

/-- The driver, its registers, and the threads.  `handler` is the byte that
the handler has read when it is under way. -/
structure Driver (ι : Type) where
  readBuffer : FifoBuffer
  memory : Memory
  flags : UInt32
  valrdy : Bool
  value : UInt8
  inten : Bool
  handler : Option UInt8
  readers : ι → Reader
  generated : List UInt8
  stored : List UInt8
  delivered : List (ι × UInt8)

variable {ι : Type}

/-- `_IRQ` up to the call of `fifo_buffer_putb`. -/
def _IRQ (s : Driver ι) : Driver ι := if s.valrdy then { s with handler := some s.value } else s

/-- `_IRQ` from there on. -/
def finishIRQ (s : Driver ι) (value : UInt8) : Driver ι :=
  let (ret, readBuffer, memory) := fifoBufferPutb s.readBuffer s.memory value
  let s := { s with readBuffer := readBuffer, memory := memory, handler := none }
  if ret = fifoBufferPutSuccess then { s with valrdy := false, stored := s.stored ++ [value] }
  else { s with inten := false }

/-- `_read` up to its first critical section. -/
def enterRead (s : Driver ι) (count : Nat) : Reader :=
  if count = 0 then .returned ⟨s.flags, 0, [], 0⟩ else .locking ⟨s.flags, count, [], count⟩

/-- The end of the outer loop of `_read`: return, or yield and go round. -/
def decideRead (call : Reading) : Reader :=
  if call.count = 0 ∨ call.flags &&& nonblock ≠ 0 then .returned call else .waiting call

section Threads

variable [DecidableEq ι]

def Driver.setReader (s : Driver ι) (thread : ι) (reader : Reader) : Driver ι :=
  { s with readers := Function.update s.readers thread reader }

def criticalSection (s : Driver ι) (thread : ι) (call : Reading) : Driver ι :=
  let (readBuffer, bytes, left) := getBytes s.memory s.readBuffer call.count
  { s with
    readBuffer := readBuffer
    delivered := s.delivered ++ bytes.map fun b => (thread, b)
    readers := Function.update s.readers thread (.enabling (call.take bytes left)) }

inductive Event (ι : Type) where
  | read (thread : ι) (count : Nat)
  | criticalSection (thread : ι)
  | intenset (thread : ι)
  | decide (thread : ι)
  | irq
  | finishIRQ
  | generate (value : UInt8)

def readerStep (s : Driver ι) : Event ι → Option (Driver ι)
  | .read thread count =>
      match s.readers thread with
      | .returned _ => some (s.setReader thread (enterRead s count))
      | _ => none
  | .criticalSection thread =>
      match s.readers thread with
      | .locking call | .waiting call => some (criticalSection s thread call)
      | _ => none
  | .intenset thread =>
      match s.readers thread with
      | .enabling call => some ({ s with inten := true }.setReader thread (.deciding call))
      | _ => none
  | .decide thread =>
      match s.readers thread with
      | .deciding call => some (s.setReader thread (decideRead call))
      | _ => none
  | _ => none

def step (s : Driver ι) : Event ι → Option (Driver ι)
  | .generate value =>
      some { s with valrdy := true, value := value, generated := s.generated ++ [value] }
  | .finishIRQ => s.handler.map (finishIRQ s)
  | .irq => if s.handler.isNone then some (_IRQ s) else none
  | event => if s.handler.isNone then readerStep s event else none

end Threads

/-- The state in which `__open__` leaves the driver.  The registers may hold
anything, a byte that is ready among it. -/
def opened (bp : Nat) (sz : UInt16) (memory : Memory) (flags : UInt32) (valrdy : Bool)
    (value : UInt8) (inten : Bool) : Driver ι where
  readBuffer := ⟨bp, 0, 0, sz, 0, sz⟩
  memory := memory
  flags := flags
  valrdy := valrdy
  value := value
  inten := inten
  handler := none
  readers := fun _thread => .returned ⟨flags, 0, [], 0⟩
  generated := if valrdy then [value] else []
  stored := []
  delivered := []

end Hwrng
end ShovelOS
