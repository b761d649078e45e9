import Aesd.Driver.Isolation

/-!
# Calls of several threads

The file operations as threads run them: not at once, but step by step, with the steps of
other calls in between.  Only the mutex of the device keeps the calls apart, and a write
has a copy of its data before it waits for the mutex.  The position of a file is handed to
a read or a write when it is called, and stored back when it returns.
-/

namespace Aesd.Driver

open Aesd.Memory Aesd.Transition

/-! ## What is done under the mutex -/

/-- What a call hands back: its return value, the bytes it has delivered, and the position
that is stored back into the file. -/
structure Reply where
  ret : Int
  bytes : List Byte
  back : Option (FileId × Int)

namespace Reply

/-- A reply that leaves the position. -/
abbrev plain (ret : Int) : Reply :=
  ⟨ret, [], none⟩

def output (reply : Reply) : Int × List Byte :=
  (reply.ret, reply.bytes)

/-- Store the position back. -/
def store (reply : Reply) (system : System) : System :=
  match reply.back with
  | some (file, pos) => { system with fPos := Function.update system.fPos file pos }
  | none => system

end Reply

/-- How far a read is with its entry. -/
inductive ReadStage where
  | find
  | copy (newEntry byteOffset : Nat)

/-- How far a write is with its line. -/
inductive WriteStage where
  | scan
  | grow (appendIndex : Nat) (newlineFound : Bool)
  | append (appendIndex : Nat) (newlineFound : Bool)
  | commit (appendIndex : Nat)
  | release (retval : Int)

/-- What a call has left to do before it releases the mutex. -/
inductive Critical where
  | read (stage : ReadStage) (outcome : ReadOutcome) (file : FileId) (pos : Int) (count : Nat)
  | write (stage : WriteStage) (outcome : WriteOutcome) (file : FileId) (pos : Int)
      (writeData : Pointer) (count : Nat)
  | llseek (file : FileId) (offset : Int) (whence : Whence)
  | adjust (file : FileId) (writeCmd writeCmdOffset : Nat)
  | done (reply : Reply)

/-- The steps of `aesd_read` between lock and unlock. -/
def readLockedStep (stage : ReadStage) (outcome : ReadOutcome) (file : FileId) (pos : Int)
    (count : Nat) (system : System) : Option (Critical × System) :=
  match stage with
  | .find =>
      match aesdCircularBufferFindEntryOffsetForFpos system.device.buffer (toSize pos) with
      | none => some (.done (.plain 0), system)
      | some (newEntry, byteOffset) =>
          some (.read (.copy newEntry byteOffset) outcome file pos count, system)
  | .copy newEntry byteOffset =>
      let bytesRemaining := subSize (system.device.buffer.slot newEntry).size byteOffset
      let bytesToCopy := min bytesRemaining count
      if copyFails outcome.copyToUser bytesToCopy then
        some (.done (.plain (-efault)), system)
      else
        (system.heap.load (system.device.buffer.slot newEntry).buffptr byteOffset
          bytesToCopy).map fun bytes =>
            (.done ⟨bytesToCopy, bytes, some (file, pos + bytesToCopy)⟩, system)

/-- The steps of `aesd_write` between lock and unlock. -/
def writeLockedStep (stage : WriteStage) (outcome : WriteOutcome) (file : FileId) (pos : Int)
    (writeData : Pointer) (count : Nat) (system : System) : Option (Critical × System) :=
  let goOn (stage : WriteStage) := Critical.write stage outcome file pos writeData count
  match stage with
  | .scan =>
      (system.heap.load writeData 0 count).map fun data =>
        (goOn (.grow (appendIndex data) (newline ∈ data)), system)
  | .grow append newlineFound =>
      (growWriteBuffer outcome system.device system.heap count append).map
        fun (writeBuffer, heap) =>
          (goOn (if writeBuffer = .null then .release (-enomem)
              else .append append newlineFound),
            { system with
              heap := heap
              device := { system.device with writeBuffer := writeBuffer } })
  | .append append newlineFound =>
      (memcpy system.heap system.device.writeBuffer system.device.writeBufferSize writeData
        append).map fun heap =>
          (goOn (if newlineFound then .commit append else .release append),
            { system with
              heap := heap
              device := { system.device with
                writeBufferSize := addSize system.device.writeBufferSize append } })
  | .commit append =>
      (commitEntry system.device system.heap).map fun (device, heap) =>
        (goOn (.release append), { system with heap := heap, device := device })
  | .release retval =>
      -- the position is advanced after the mutex is released, and only by a success
      (kfree system.heap writeData).map fun heap =>
        (.done ⟨retval, [], if 0 ≤ retval then some (file, pos + retval) else none⟩,
          { system with heap := heap })

namespace Critical

/-- The next step under the mutex. -/
def step (critical : Critical) (system : System) : Option (Critical × System) :=
  match critical with
  | read stage outcome file pos count => readLockedStep stage outcome file pos count system
  | write stage outcome file pos writeData count =>
      writeLockedStep stage outcome file pos writeData count system
  | llseek file offset whence =>
      let (ret, system) := aesdLlseek true file offset whence system
      some (done (.plain ret), system)
  | adjust file writeCmd writeCmdOffset =>
      let (ret, system) := aesdAdjustFileOffset true file writeCmd writeCmdOffset system
      some (done (.plain ret), system)
  | done _ => none

/-- Go on alone until everything is done, for at most `fuel` steps. -/
def finish : Nat → Critical → System → Option (Reply × System)
  | _, done reply, system => some (reply, system)
  | 0, _, _ => none
  | fuel + 1, critical, system =>
      (critical.step system).bind fun next => next.1.finish fuel next.2

end Critical

/-! ## Calls -/

/-- Where a call is.  `start` has been handed a position, `copying` has allocated the copy
of the data, `locking` waits for the mutex, `inside` holds it, `returning` has released
it. -/
inductive Pc where
  | start (pos : Int)
  | copying (outcome : WriteOutcome) (file : FileId) (data : List Byte) (pos : Int)
      (writeData : Pointer)
  | locking (critical : Critical)
  | inside (critical : Critical)
  | returning (reply : Reply)

/-- A call in progress. -/
structure Call where
  operation : Operation
  pc : Pc

/-- Whether the wait for the mutex is not interrupted. -/
def Operation.lock : Operation → Bool
  | openFile _ => true
  | read outcome .. => outcome.lock
  | write call => call.outcome.lock
  | llseek lock .. => lock
  | ioctl outcome .. => outcome.lock

/-- What a call does before it waits for the mutex, or instead. -/
def Operation.begin (pos : Int) (system : System) : Operation → Pc × System
  | openFile file => (.returning (.plain 0), aesdOpen file system)
  | read outcome (some file) true count =>
      (.locking (.read .find outcome file pos count), system)
  | read .. => (.returning (.plain (-einval)), system)
  | write ⟨outcome, some file, some data⟩ =>
      let (writeData, heap) := kmalloc outcome.writeData system.heap data.length
      if writeData = .null then
        (.returning (.plain (-enomem)), { system with heap := heap })
      else
        (.copying outcome file data pos writeData, { system with heap := heap })
  | write _ => (.returning (.plain (-einval)), system)
  | llseek _ file offset whence => (.locking (.llseek file offset whence), system)
  | ioctl outcome file cmd arg =>
      if iocType cmd ≠ aesdIocMagic ∨ iocNr cmd > aesdcharIocMaxnr then
        (.returning (.plain (-enotty)), system)
      else if cmd = aesdcharIocseekto then
        if outcome.copyFromUser then
          (.locking (.adjust file arg.writeCmd.toNat arg.writeCmdOffset.toNat), system)
        else
          (.returning (.plain (-efault)), system)
      else
        (.returning (.plain (-enotty)), system)

/-- Fill the copy of the data from user space. -/
def copyData (outcome : WriteOutcome) (file : FileId) (data : List Byte) (pos : Int)
    (writeData : Pointer) (system : System) : Option (Pc × System) :=
  if copyFails outcome.copyFromUser data.length then
    (kfree system.heap writeData).map fun heap =>
      (.returning (.plain (-efault)), { system with heap := heap })
  else
    (system.heap.store writeData 0 data).map fun heap =>
      (.locking (.write .scan outcome file pos writeData data.length),
        { system with heap := heap })

/-! ## The device with its callers -/

section

variable {τ : Type} [DecidableEq τ]

/-- The device, the owner of its mutex, and the calls in progress. -/
structure SharedDevice (τ : Type) where
  system : System
  lock : Option τ
  calls : τ → Option Call

/-- The module has been loaded, and nothing is called. -/
def SharedDevice.loaded (kmallocMaxSize : KmallocMaxSize) : SharedDevice τ where
  system := aesdInitModule kmallocMaxSize
  lock := none
  calls _ := none

/-- A thread calls a file operation, or takes the next step of its call. -/
inductive CallEvent (τ : Type) where
  | call (thread : τ) (operation : Operation)
  | advance (thread : τ)

namespace SharedDevice

/-- A call goes on, without the mutex. -/
def goesOn (device : SharedDevice τ) (thread : τ) (operation : Operation) (pc : Pc)
    (system : System) : SharedDevice τ where
  system := system
  lock := device.lock
  calls := Function.update device.calls thread (some ⟨operation, pc⟩)

/-- The next step of a call; the output of its last one is what it returns and has
delivered. -/
def advance (device : SharedDevice τ) (thread : τ) (call : Call) :
    Option (Option (Int × List Byte) × SharedDevice τ) :=
  match call.pc with
  | .start pos =>
      let (pc, system) := call.operation.begin pos device.system
      some (none, device.goesOn thread call.operation pc system)
  | .copying outcome file data pos writeData =>
      (copyData outcome file data pos writeData device.system).map fun (pc, system) =>
        (none, device.goesOn thread call.operation pc system)
  | .locking critical =>
      if call.operation.lock then
        match device.lock with
        | some _ => none
        | none => some (none,
            { device.goesOn thread call.operation (.inside critical) device.system with
              lock := some thread })
      else
        some (none,
          device.goesOn thread call.operation (.returning (.plain (-erestartsys)))
            device.system)
  | .inside (.done reply) =>
      some (none,
        { device.goesOn thread call.operation (.returning reply) device.system with
          lock := none })
  | .inside critical =>
      (critical.step device.system).map fun (critical, system) =>
        (none, device.goesOn thread call.operation (.inside critical) system)
  | .returning reply =>
      some (some reply.output,
        { device with
          system := reply.store device.system
          calls := Function.update device.calls thread none })

end SharedDevice

/-- The steps of all threads, in any order.  A thread calls one operation after the
other. -/
def callStep : Machine (SharedDevice τ) (CallEvent τ) (Option (Int × List Byte))
  | device, .call thread operation =>
      match device.calls thread with
      | some _ => none
      | none =>
          let pos := (operation.filp.map device.system.fPos).getD 0
          some (none, device.goesOn thread operation (.start pos) device.system)
  | device, .advance thread => (device.calls thread).bind fun call => device.advance thread call

end

end Aesd.Driver
