import Osfx.IdAllocator
import Osfx.Lib.Scan

/-!
# Saved leases

`osfx_id_save` and `osfx_id_load`, and the `stdio` backend of `osfx_storage.c`. A file
is a line for the range, two for the policy and one for each lease. A line is
printed into a buffer of 192 bytes, which cuts a longer one, its newline included. What
`%lf` reads in a line is up to the type of the `double`s.
-/

namespace Osfx

open SlotTable Scan Numeral

/-- An open writer: how many lines it takes before a write fails, and whether it
closes. -/
structure StorageWriter where
  accepts : Nat
  closeOk : Bool

/-- An open reader: the lines it delivers, whether an error ends them, and whether it
closes. -/
structure StorageReader where
  lines : List Bytes
  readError : Bool
  closeOk : Bool

/-- A file as the `stdio` backend reads it into a buffer of 256 bytes. -/
def stdioLines (file : Bytes) : List Bytes := linesOf 255 file

/-- What `snprintf` leaves of a line in a buffer of 192 bytes. -/
def printLine (text : Bytes) : Bytes := text.take 191

namespace IdAllocator

variable {n : Nat} {Dbl : Type}

/-! ## osfx_id_save -/

def rangeText (alloc : IdAllocator n) : Bytes :=
  ascii "range," ++ (decimal alloc.startId.toNat ++ comma :: (decimal alloc.endId.toNat ++
    comma :: (decimal alloc.defaultLeaseSeconds.toNat ++ [newline])))

def policyText (alloc : IdAllocator n) : Bytes :=
  ascii "policy," ++ (decimal alloc.minLeaseSeconds.toNat ++
    comma :: (decimal alloc.rateWindowSeconds.toNat ++
    comma :: (fixed6 alloc.highRateThresholdPerHour ++
    comma :: (fixed6 alloc.highRateMinFactor ++
    comma :: (decimal (if alloc.adaptiveEnabled then 1 else 0) ++ [newline])))))

def policyExText (alloc : IdAllocator n) : Bytes :=
  ascii "policy_ex," ++ (decimal alloc.maxLeaseSeconds.toNat ++
    comma :: (decimal alloc.rateWindowSeconds.toNat ++
    comma :: (fixed6 alloc.pressureHighWatermark ++
    comma :: (fixed6 alloc.pressureMinFactor ++
    comma :: (fixed6 alloc.touchExtendFactor ++ [newline])))))

def entryText (e : IdLeaseEntry) : Bytes :=
  decimal e.aid.toNat ++ comma :: (decimal e.leasedUntil.toNat ++
    comma :: (decimal e.lastSeen.toNat ++ [newline]))

/-- The leases, in the order of their slots. -/
def leases (alloc : IdAllocator n) : List IdLeaseEntry := alloc.entries.toList.filter (·.inUse)

def savedLines (alloc : IdAllocator n) : List Bytes :=
  [printLine alloc.rangeText, printLine alloc.policyText, printLine alloc.policyExText] ++
    alloc.leases.map fun e => printLine (entryText e)

/-- `osfx_id_save`: the lines written, and whether it returns 1. -/
def save (alloc : IdAllocator n) : Option StorageWriter → List Bytes × Bool
  | none => ([], false)
  | some writer =>
    if alloc.savedLines.length ≤ writer.accepts then (alloc.savedLines, writer.closeOk)
    else (alloc.savedLines.take writer.accepts, false)

/-! ## osfx_id_load -/

/-- `"range,%u,%u,%llu"`. -/
def scanRange (line : Bytes) : Option (UInt32 × UInt32 × UInt64) := do
  let rest ← literal (ascii "range,") line
  let (startId, rest) ← u32 rest
  let rest ← literal [comma] rest
  let (endId, rest) ← u32 rest
  let rest ← literal [comma] rest
  let (lease, _) ← u64 rest
  return (startId, endId, lease)

/-- `"policy,%llu,%llu,%lf,%lf,%d"`. -/
def scanPolicy (Dbl : Type) [PolicyDouble Dbl] (line : Bytes) :
    Option (UInt64 × UInt64 × Dbl × Dbl × Int) := do
  let rest ← literal (ascii "policy,") line
  let (minLease, rest) ← u64 rest
  let rest ← literal [comma] rest
  let (rateWindow, rest) ← u64 rest
  let rest ← literal [comma] rest
  let (threshold, rest) ← PolicyDouble.scan rest
  let rest ← literal [comma] rest
  let (factor, rest) ← PolicyDouble.scan rest
  let rest ← literal [comma] rest
  let (adaptive, _) ← i32 rest
  return (minLease, rateWindow, threshold, factor, adaptive)

/-- `"policy_ex,%llu,%llu,%lf,%lf,%lf"`. -/
def scanPolicyEx (Dbl : Type) [PolicyDouble Dbl] (line : Bytes) :
    Option (UInt64 × UInt64 × Dbl × Dbl × Dbl) := do
  let rest ← literal (ascii "policy_ex,") line
  let (maxLease, rest) ← u64 rest
  let rest ← literal [comma] rest
  let (rateWindow, rest) ← u64 rest
  let rest ← literal [comma] rest
  let (pressureHigh, rest) ← PolicyDouble.scan rest
  let rest ← literal [comma] rest
  let (pressureMin, rest) ← PolicyDouble.scan rest
  let rest ← literal [comma] rest
  let (touchFactor, _) ← PolicyDouble.scan rest
  return (maxLease, rateWindow, pressureHigh, pressureMin, touchFactor)

/-- `"%u,%llu,%llu"`. -/
def scanEntry (line : Bytes) : Option IdLeaseEntry := do
  let (aid, rest) ← u32 line
  let rest ← literal [comma] rest
  let (leasedUntil, rest) ← u64 rest
  let rest ← literal [comma] rest
  let (lastSeen, _) ← u64 rest
  return ⟨aid, leasedUntil, lastSeen, true⟩

/-- Put a lease that was read into the first free slot, if there is one. -/
def addLease (alloc : IdAllocator n Dbl) (e : IdLeaseEntry) : IdAllocator n Dbl :=
  match alloc.allocSlot with
  | none => alloc
  | some i => alloc.setEntry i e

/-- The body of the loop of `osfx_id_load`. A line no format fits is skipped. -/
def loadLine [PolicyDouble Dbl] (alloc : IdAllocator n Dbl) (line : Bytes) : IdAllocator n Dbl :=
  match scanRange line with
  | some (startId, endId, lease) => { alloc with startId, endId, defaultLeaseSeconds := lease }
  | none =>
    match scanPolicy Dbl line with
    | some (minLease, rateWindow, threshold, factor, adaptive) =>
      alloc.setPolicy minLease rateWindow threshold factor (adaptive != 0)
    | none =>
      match scanPolicyEx Dbl line with
      | some (maxLease, rateWindow, pressureHigh, pressureMin, touchFactor) =>
        alloc.setPolicyEx alloc.minLeaseSeconds maxLease rateWindow
          alloc.highRateThresholdPerHour alloc.highRateMinFactor pressureHigh pressureMin
          touchFactor alloc.adaptiveEnabled
      | none =>
        match scanEntry line with
        | some e => alloc.addLease e
        | none => alloc

def clearEntries (alloc : IdAllocator n Dbl) : IdAllocator n Dbl :=
  { alloc with entries := Vector.replicate n .zero }

/-- `osfx_id_load`: the allocator, and whether it returns 1. -/
def load [PolicyDouble Dbl] (alloc : IdAllocator n Dbl) :
    Option StorageReader → IdAllocator n Dbl × Bool
  | none => (alloc, false)
  | some reader =>
    (reader.lines.foldl loadLine alloc.clearEntries, !reader.readError && reader.closeOk)

end IdAllocator

end Osfx
