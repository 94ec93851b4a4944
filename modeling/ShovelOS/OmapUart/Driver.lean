import ShovelOS.Fifo.Drain
import ShovelOS.Uart.Driver

namespace ShovelOS
namespace OmapUart

open Fifo Uart

/-!
# The serial driver of the OMAP boards (`drivers/ti/omap/uart/uart.c`)

Both directions at once.  Threads write to and read from two byte queues in
critical sections, and the handler moves bytes between the queues and the
FIFOs of the hardware, one in each turn of its loops.  The development
console does without queues, interrupts and locks: its calls watch the status
registers and use the FIFOs themselves.

Each step of a thread, each turn of the handler and each byte of the hardware
is a step of a run, in any order, except that no thread runs while the
handler does.  On the development console the read of a status register and
the access to the FIFO that follows it are two steps, and other threads may
run in between.  The two queues have memory of their own.

Next to the driver, the state keeps the bytes that the writers got accepted,
those the hardware has sent and has received, those that were read from
`RHR` and those of them that found room, and those that the readers took.
For each byte that was lost it keeps how many bytes the queue held then.
-/

def dev : UInt32 := 4

/-- The bytes that each FIFO of the hardware holds. -/
def fifoDepth : Nat := 64

def itTypeMask : UInt32 := 0x3e
def itTypeThr : UInt32 := (0x01 : UInt32) <<< 1
def itTypeRhr : UInt32 := (0x02 : UInt32) <<< 1

/-- A call of `_write` under way: the flags, the bytes that it was given, those
that have been accepted, and those from `vbuffer` on. -/
structure WriteCall where
  flags : UInt32
  given : List UInt8
  done : List UInt8
  rest : List UInt8

/-- Where a thread is.  Outside of the driver there is its last call.  Storing,
it has seen `SSR` without `TX_FIFO_FULL`, and fetching, `LSR` with `RX_FIFO_E`,
and its next step is the access to the FIFO. -/
inductive Caller where
  | wrote (call : WriteCall)
  | writeLocking (call : WriteCall)
  | writeDeciding (call : WriteCall)
  | writePolling (call : WriteCall)
  | writeStoring (call : WriteCall) (b : UInt8) (rest : List UInt8)
  | writeFlushing (call : WriteCall)
  | read (call : Reading)
  | readLocking (call : Reading)
  | readDeciding (call : Reading)
  | readPolling (call : Reading)
  | readFetching (call : Reading) (count : Nat)

inductive Handler where
  | idle
  | sending
  | receiving
  deriving DecidableEq

/-- The driver, the part of the hardware that it sees, and the threads.  Of
`IER` the state keeps the two bits that the driver sets. -/
structure Driver (ι : Type) where
  readBuffer : FifoBuffer
  readMemory : Memory
  writeBuffer : FifoBuffer
  writeMemory : Memory
  flags : UInt32
  thrIt : Bool
  rhrIt : Bool
  txFifo : List UInt8
  rxFifo : List UInt8
  handler : Handler
  callers : ι → Caller
  accepted : List (ι × UInt8)
  sent : List UInt8
  arrived : List UInt8
  fetched : List UInt8
  stored : List UInt8
  delivered : List (ι × UInt8)
  losses : List Nat

variable {ι : Type}

def Driver.txFull (s : Driver ι) : Prop := fifoDepth ≤ s.txFifo.length

instance Driver.txFullDecidable (s : Driver ι) : Decidable s.txFull :=
  inferInstanceAs (Decidable (fifoDepth ≤ s.txFifo.length))

/-! ## The handler -/

/-- `_IRQ` up to its loops. -/
def _IRQ (s : Driver ι) (iir : UInt32) : Driver ι :=
  if iir &&& itTypeMask = itTypeThr then { s with handler := .sending }
  else if iir &&& itTypeMask = itTypeRhr then { s with handler := .receiving }
  else s

def sendTurn (s : Driver ι) : Driver ι :=
  if s.txFull then { s with handler := .idle }
  else
    let (ret, writeBuffer, b) := fifoBufferGetb s.writeBuffer s.writeMemory 0
    if ret = fifoBufferGetSuccess then
      { s with writeBuffer := writeBuffer, txFifo := s.txFifo ++ [b] }
    else { s with writeBuffer := writeBuffer, thrIt := false, handler := .idle }

def receiveTurn (s : Driver ι) : Driver ι :=
  match s.rxFifo with
  | [] => { s with handler := .idle }
  | b :: rxFifo =>
      let (ret, readBuffer, readMemory) := fifoBufferPutb s.readBuffer s.readMemory b
      let s := { s with
        readBuffer := readBuffer
        readMemory := readMemory
        rxFifo := rxFifo
        fetched := s.fetched ++ [b] }
      if ret = fifoBufferPutSuccess then { s with stored := s.stored ++ [b] }
      else { s with handler := .idle, losses := s.losses ++ [readBuffer.rsz.toNat] }

/-! ## The calls -/

section Threads

variable [DecidableEq ι]

def Driver.setCaller (s : Driver ι) (thread : ι) (caller : Caller) : Driver ι :=
  { s with callers := Function.update s.callers thread caller }

def callFlags (s : Driver ι) (inInterrupt : Bool) : UInt32 :=
  if inInterrupt then s.flags ||| nonblock else s.flags

/-- `_write` up to its loops. -/
def enterWrite (s : Driver ι) (inInterrupt : Bool) (vbuffer : List UInt8) : Caller :=
  let call : WriteCall := ⟨callFlags s inInterrupt, vbuffer, [], vbuffer⟩
  if call.flags &&& dev ≠ 0 then .writePolling call
  else if vbuffer = [] then .wrote call
  else .writeLocking call

/-- `_read` up to its loops. -/
def enterRead (s : Driver ι) (inInterrupt : Bool) (count : Nat) : Caller :=
  let call : Reading := ⟨callFlags s inInterrupt, count, [], count⟩
  if call.flags &&& dev ≠ 0 then .readPolling call else .readLocking call

def writeSection (s : Driver ι) (thread : ι) (call : WriteCall) : Driver ι :=
  let (writeBuffer, writeMemory, accepted, rest) := putBytes s.writeBuffer s.writeMemory call.rest
  { s with
    thrIt := true
    writeBuffer := writeBuffer
    writeMemory := writeMemory
    accepted := s.accepted ++ accepted.map fun b => (thread, b)
    callers := Function.update s.callers thread
      (.writeDeciding { call with done := call.done ++ accepted, rest := rest }) }

def readSection (s : Driver ι) (thread : ι) (call : Reading) : Driver ι :=
  let (readBuffer, bytes, left) := getBytes s.readMemory s.readBuffer call.count
  { s with
    readBuffer := readBuffer
    delivered := s.delivered ++ bytes.map fun b => (thread, b)
    callers := Function.update s.callers thread (.readDeciding (call.take bytes left)) }

/-- The loop of `_write` that watches `SSR`, up to the store. -/
def pollSsr (s : Driver ι) (thread : ι) (call : WriteCall) : Driver ι :=
  match call.rest with
  | [] => s.setCaller thread (.writeFlushing call)
  | b :: rest => if s.txFull then s else s.setCaller thread (.writeStoring call b rest)

/-- The store to `THR`, after which the byte counts as written.  A full FIFO
loses it. -/
def storeThr (s : Driver ι) (thread : ι) (call : WriteCall) (b : UInt8)
    (rest : List UInt8) : Driver ι :=
  { s with
    txFifo := if s.txFull then s.txFifo else s.txFifo ++ [b]
    accepted := s.accepted ++ [(thread, b)]
    callers := Function.update s.callers thread
      (.writePolling { call with done := call.done ++ [b], rest := rest }) }

/-- The loop of `_read` that watches `LSR`, up to the read of `RHR`. -/
def pollLsr (s : Driver ι) (thread : ι) (call : Reading) : Driver ι :=
  match call.count with
  | 0 => s.setCaller thread (.read call)
  | count + 1 => if s.rxFifo = [] then s else s.setCaller thread (.readFetching call count)

/-- The read of `RHR`, which is `rhr` where the FIFO is empty. -/
def fetchRhr (s : Driver ι) (thread : ι) (call : Reading) (count : Nat) (rhr : UInt8) : Driver ι :=
  let b := s.rxFifo.headD rhr
  { s with
    rxFifo := s.rxFifo.tail
    fetched := s.fetched ++ [b]
    stored := s.stored ++ [b]
    delivered := s.delivered ++ [(thread, b)]
    callers := Function.update s.callers thread (.readPolling (call.take [b] count)) }

def advance (s : Driver ι) (thread : ι) (rhr : UInt8) : Option (Driver ι) :=
  match s.callers thread with
  | .writeLocking call => some (writeSection s thread call)
  | .writeDeciding call =>
      some (s.setCaller thread
        (if call.rest ≠ [] ∧ call.flags &&& nonblock = 0 then .writeLocking call else .wrote call))
  | .writePolling call => some (pollSsr s thread call)
  | .writeStoring call b rest => some (storeThr s thread call b rest)
  | .writeFlushing call => some (if s.txFifo = [] then s.setCaller thread (.wrote call) else s)
  | .readLocking call => some (readSection s thread call)
  | .readDeciding call =>
      some (s.setCaller thread
        (if call.count ≠ 0 ∧ call.flags &&& nonblock = 0 then .readLocking call else .read call))
  | .readPolling call => some (pollLsr s thread call)
  | .readFetching call count => some (fetchRhr s thread call count rhr)
  | .wrote _ | .read _ => none

/-- A new call of a thread that is outside of the driver. -/
def enter (s : Driver ι) (thread : ι) (caller : Caller) : Option (Driver ι) :=
  match s.callers thread with
  | .wrote _ | .read _ => some (s.setCaller thread caller)
  | _ => none

inductive Event (ι : Type) where
  | write (thread : ι) (inInterrupt : Bool) (vbuffer : List UInt8)
  | read (thread : ι) (inInterrupt : Bool) (count : Nat)
  | advance (thread : ι) (rhr : UInt8)
  | irq (iir : UInt32)
  | turn
  | shift
  | arrive (b : UInt8)

/-- One step.  The hardware reports received bytes only where `RHR_IT` is set,
and takes no more of them than its FIFO has room for. -/
def step (s : Driver ι) : Event ι → Option (Driver ι)
  | .write thread inInterrupt vbuffer =>
      if s.handler = .idle then enter s thread (enterWrite s inInterrupt vbuffer) else none
  | .read thread inInterrupt count =>
      if s.handler = .idle then enter s thread (enterRead s inInterrupt count) else none
  | .advance thread rhr => if s.handler = .idle then advance s thread rhr else none
  | .irq iir =>
      if s.handler = .idle ∧ (iir &&& itTypeMask = itTypeRhr → s.rhrIt = true) then
        some (_IRQ s iir) else none
  | .turn =>
      match s.handler with
      | .idle => none
      | .sending => some (sendTurn s)
      | .receiving => some (receiveTurn s)
  | .shift =>
      match s.txFifo with
      | [] => none
      | b :: txFifo => some { s with txFifo := txFifo, sent := s.sent ++ [b] }
  | .arrive b =>
      if s.rxFifo.length < fifoDepth then
        some { s with rxFifo := s.rxFifo ++ [b], arrived := s.arrived ++ [b] }
      else none

end Threads

/-- The state in which `_chrd_open` leaves the driver: fresh queues, and
`RHR_IT` where it is not for the development console. -/
def opened (readBp writeBp : Nat) (sz : UInt16) (readMemory writeMemory : Memory)
    (flags : UInt32) : Driver ι where
  readBuffer := ⟨readBp, 0, 0, sz, 0, sz⟩
  readMemory := readMemory
  writeBuffer := ⟨writeBp, 0, 0, sz, 0, sz⟩
  writeMemory := writeMemory
  flags := flags
  thrIt := false
  rhrIt := decide (flags &&& dev = 0)
  txFifo := []
  rxFifo := []
  handler := .idle
  callers := fun _thread => .read ⟨flags, 0, [], 0⟩
  accepted := []
  sent := []
  arrived := []
  fetched := []
  stored := []
  delivered := []
  losses := []

end OmapUart
end ShovelOS
