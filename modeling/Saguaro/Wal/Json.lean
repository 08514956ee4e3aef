/-
A JSON library and a checksum that can be evaluated, for the runs of this development.

The texts are those that `serde_json` writes for the derived `Serialize` of
`WalRecordKind` and `ClogPayload`, and the checksum is CRC-32. A library here knows a
list of kinds and reads a text back by looking for the kind that is written so
(`Serde.ofKinds`).

Change sets are different. `serde_json` prints the shortest decimal that stands for a
double, and without its feature `float_roundtrip` reads a decimal by rounding the digits
to a double and dividing by a power of ten, which rounds again. `statisticsSerde` has
these two functions for the fraction of nulls in the statistics of one column.
-/

import Saguaro.Wal.Clog
import Saguaro.Wal.Codec

namespace Saguaro.Wal

open List

/-! ### CRC-32 -/

def crcBit (crc : Nat) : Nat := if crc % 2 = 1 then (crc / 2) ^^^ 0xEDB88320 else crc / 2

def crcByte (crc : Nat) (byte : UInt8) : Nat := crcBit^[8] (crc ^^^ byte.toNat)

/-- The checksum of IEEE 802.3, bit by bit. -/
def crcOf (bytes : Bytes) : UInt32 :=
  UInt32.ofNat (bytes.foldl crcByte 0xFFFFFFFF ^^^ 0xFFFFFFFF)

def ascii (text : String) : Bytes := text.toList.map fun c => UInt8.ofNat c.toNat

example : crcOf (ascii "123456789") = 0xCBF43926 := by decide +kernel

/-! ### Texts -/

def jsonNat (n : Nat) : Bytes := (Nat.toDigits 10 n).map fun c => UInt8.ofNat c.toNat

def jsonList (ids : List Nat) : Bytes :=
  ascii "[" ++ (ascii ",").intercalate (ids.map jsonNat) ++ ascii "]"

/-- What is written for a kind; page changes have no JSON form in the log. -/
def jsonKind : WalRecordKind Empty → Bytes
  | .commit => ascii "\"Commit\""
  | .abort => ascii "\"Abort\""
  | .commitWithSubxids subxids => ascii "\x7b\"CommitWithSubxids\":\x7b\"subxids\":" ++
      jsonList (subxids.map UInt64.toNat) ++ ascii "\x7d\x7d"
  | .checkpoint checkpointEndLsn pageRedoLsn catalogRedoLsn =>
    ascii "\x7b\"Checkpoint\":\x7b\"checkpoint_end_lsn\":" ++ jsonNat checkpointEndLsn.toNat ++
      ascii ",\"page_redo_lsn\":" ++ jsonNat pageRedoLsn.toNat ++
      ascii ",\"catalog_redo_lsn\":" ++ jsonNat catalogRedoLsn.toNat ++ ascii "\x7d\x7d"
  | _ => []

def jsonSnapshot (snapshot : ClogSnapshot) : Bytes :=
  ascii "\x7b\"clog_lsn\":" ++ jsonNat snapshot.clogLsn ++
    ascii ",\"authorized_replay_floor\":" ++ jsonNat snapshot.authorizedReplayFloor ++
    ascii ",\"committed_floor\":" ++ jsonNat snapshot.committedFloor ++
    ascii ",\"vacuum_floor\":" ++ jsonNat snapshot.vacuumFloor ++
    ascii ",\"committed\":" ++ jsonList snapshot.committed ++
    ascii ",\"aborted\":" ++ jsonList snapshot.aborted ++
    ascii ",\"in_progress\":" ++ jsonList snapshot.inProgress ++ ascii "\x7d"

section Kinds

variable (kinds : List (WalRecordKind Empty))

/-- The kind that is written so. -/
def readKind (bytes : Bytes) : Option (WalRecordKind Empty) :=
  kinds.find? fun kind => jsonKind kind = bytes

variable {kinds}

theorem readKind_jsonKind (distinct : (kinds.map jsonKind).Nodup) {kind : WalRecordKind Empty}
    (known : kind ∈ kinds) : readKind kinds (jsonKind kind) = some kind := by
  cases found : readKind kinds (jsonKind kind) with
  | none => simpa using find?_eq_none.mp found kind known
  | some other =>
    rw [readKind] at found
    have same : jsonKind other = jsonKind kind := by simpa using find?_some found
    rw [inj_on_of_nodup_map distinct (mem_of_find?_eq_some found) known same]

/-- The library that knows the given kinds. -/
def Serde.ofKinds (kinds : List (WalRecordKind Empty)) (distinct : (kinds.map jsonKind).Nodup) :
    Serde Empty where
  toVec kind := if kind ∈ kinds then .ok (jsonKind kind) else .error "unsupported"
  fromSlice bytes := match readKind kinds bytes with
    | some kind => .ok kind
    | none => .error "unsupported"
  subxidsFromSlice bytes := match readKind kinds bytes with
    | some (.commitWithSubxids subxids) => .ok subxids
    | _ => .error "unsupported"
  validateShape _ := .ok ()
  crc32 := crcOf
  fromSlice_toVec := by
    intro kind bytes _ written
    split_ifs at written with known
    cases written
    rw [readKind_jsonKind distinct known]
  subxidsFromSlice_toVec := by
    intro subxids bytes written _
    split_ifs at written with known
    cases written
    rw [readKind_jsonKind distinct known]

end Kinds

/-- The library that knows the one given snapshot. -/
def ClogSerde.only (snapshot : ClogSnapshot) : ClogSerde where
  toVec payload := if payload = snapshot then .ok (jsonSnapshot snapshot) else .error "unsupported"
  fromSlice bytes := if bytes = jsonSnapshot snapshot then .ok snapshot else .error "unsupported"
  crc32 := crcOf
  fromSlice_toVec := by
    intro payload bytes written
    split_ifs at written with same
    simp [← Except.ok.inj written, same]

theorem ClogSerde.only_toVec (snapshot : ClogSnapshot) :
    (only snapshot).toVec snapshot = .ok (jsonSnapshot snapshot) := by
  simp [only]

/-! ### Doubles -/

/-- The double `mantissa * 2 ^ exponent`. -/
structure Double where
  mantissa : Nat
  exponent : Int
  deriving DecidableEq, Repr

namespace Double

def num (d : Double) : Nat := d.mantissa * 2 ^ d.exponent.toNat

def den (d : Double) : Nat := 2 ^ (-d.exponent).toNat

/-- `p / q`, rounded to an integer, and to the even one if both are as near. -/
def halfEven (p q : Nat) : Nat :=
  if 2 * (p % q) < q ∨ 2 * (p % q) = q ∧ p / q % 2 = 0 then p / q else p / q + 1

def least (holds : Nat → Bool) : Nat := ((range 1100).find? holds).getD 0

/-- The double next to `p / q`. -/
def nearest (p q : Nat) : Double :=
  if p < 2 ^ 53 * q then
    let shift := least fun s => 2 ^ 52 * q ≤ p * 2 ^ s
    ⟨halfEven (p * 2 ^ shift) q, -shift⟩
  else
    let shift := least fun s => p < 2 ^ 53 * q * 2 ^ s
    ⟨halfEven p (q * 2 ^ shift), shift⟩

/-- The decimal places that are printed of a double below one: as few as tell it from the others. -/
def places (d : Double) : Nat :=
  least fun k => nearest (halfEven (d.num * 10 ^ k) d.den) (10 ^ k) = d

/-- The digits that are printed. -/
def digits (d : Double) : Nat := halfEven (d.num * 10 ^ d.places) d.den

def print (d : Double) : Bytes :=
  ascii "0." ++ replicate (d.places - (jsonNat d.digits).length) 0x30 ++ jsonNat d.digits

/-- `f64_from_parts`: the digits as a double, divided by a power of ten. -/
def fromParts (digits places : Nat) : Double :=
  nearest (nearest digits 1).num ((nearest digits 1).den * 10 ^ places)

def parse : Bytes → Option Double
  | 0x30 :: 0x2E :: text =>
    if text.all fun c => 0x30 ≤ c ∧ c ≤ 0x39 then
      some (fromParts (text.foldl (fun n c => 10 * n + (c.toNat - 0x30)) 0) text.length)
    else none
  | _ => none

end Double

/-- The change set of an ANALYZE of one column, up to the fraction of nulls, -/
def statisticsHead : Bytes :=
  ascii "\x7b\"CatalogChange\":\x7b\"change_set\":\x7b\"version\":1,\"mutations\":[\x7b\"before\":" ++
  ascii "null,\"after\":\x7b\"Statistics\":\x7b\"table\":1,\"statistics\":\x7b\"row_count\":11," ++
  ascii "\"page_count\":1,\"columns\":\x7b\"0\":\x7b\"null_frac\":"

/-- and behind it. -/
def statisticsTail : Bytes :=
  ascii ",\"avg_width\":4,\"n_distinct\":\x7b\"Count\":10\x7d,\"most_common\":[]," ++
  ascii "\"histogram_bounds\":[]\x7d\x7d\x7d\x7d\x7d\x7d],\"allocator_high_water\":" ++
  ascii "\x7b\"next_schema_id\":1,\"next_table_id\":2,\"next_index_id\":1,\"next_sequence_id\":1," ++
  ascii "\"next_dictionary_id\":1,\"next_storage_id\":2,\"next_constraint_id\":1," ++
  ascii "\"next_column_object_ids\":\x7b\x7d\x7d\x7d\x7d\x7d"

/-- The library on such change sets, which are told apart by the fraction of nulls. -/
def statisticsSerde : Serde Double where
  toVec
    | .catalogChange nullFrac => .ok (statisticsHead ++ nullFrac.print ++ statisticsTail)
    | _ => .error "unsupported"
  fromSlice bytes :=
    if statisticsHead.isPrefixOf bytes && statisticsTail.isSuffixOf bytes then
      match Double.parse ((bytes.drop statisticsHead.length).take
        (bytes.length - statisticsHead.length - statisticsTail.length)) with
      | some nullFrac => .ok (.catalogChange nullFrac)
      | none => .error "invalid number"
    else .error "unsupported"
  subxidsFromSlice _ := .error "unsupported"
  validateShape _ := .ok ()
  crc32 := crcOf
  fromSlice_toVec := by
    intro kind bytes other written
    cases kind with
    | catalogChange nullFrac => exact absurd rfl (other nullFrac)
    | _ => cases written
  subxidsFromSlice_toVec := nofun

end Saguaro.Wal
