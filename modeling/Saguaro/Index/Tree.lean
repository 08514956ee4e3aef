/-
The B-tree of an index (`crates/storage/src/btree.rs`).

Entries are ordered by key and, among equal keys, by the bytes of their value. A leaf
entry is an encoded key with a row location; an internal entry's key is a separator, the
key and value bytes of a leaf entry one after the other, and its value a child page.
Leaves are linked from left to right. An insert descends to a leaf, splits nodes that
have no room on the way back and grows a new root; a remove takes entries out of leaves
and leaves the pages as they are.

Operations run alone, under the index's structural latch. Buffer, WAL and I/O errors are
left out, so writing a page is a change of the page map. Key encoding enters through its
round trip. Loops that follow page numbers take fuel, and a fault says whether a call
stopped for the lack of it, with an error, or with a panic.
-/

import Saguaro.Index.Page
import Saguaro.Lib.Transition

namespace Saguaro.Index

open Result

/-! ### Values and keys -/

def corrupt (message : String) : DbError := .storage .internalError message

def LOCATION_LEN : Nat := 10
def CHILD_LEN : Nat := 4

structure RowLocation where
  fileId : UInt32
  pageNum : UInt32
  slotNum : UInt16
  deriving DecidableEq, Repr

namespace RowLocation

def encode (loc : RowLocation) : Bytes :=
  Bytes.le 4 loc.fileId.toNat ++ (Bytes.le 4 loc.pageNum.toNat ++ Bytes.le 2 loc.slotNum.toNat)

def decode (bytes : Bytes) : Result RowLocation :=
  if bytes.length ≠ LOCATION_LEN then .error (corrupt "index leaf value is not a row location")
  else .ok {
    fileId := UInt32.ofNat (Bytes.leValue (bytes.take 4))
    pageNum := UInt32.ofNat (Bytes.leValue ((bytes.drop 4).take 4))
    slotNum := UInt16.ofNat (Bytes.leValue (bytes.drop 8)) }

end RowLocation

/-- `encode_key`, `decode_key_prefix` and the order of keys. The encoding is
self-delimiting: a key is read back from in front of any bytes. -/
structure KeyCodec where
  Key : Type
  encodeKey : Key → Result Bytes
  decodeKeyPrefix : Bytes → Result (Key × Nat)
  cmp : Key → Key → Ordering
  decodeKeyPrefix_encodeKey : ∀ {key bytes} (rest : Bytes), encodeKey key = .ok bytes →
    decodeKeyPrefix (bytes ++ rest) = .ok (key, bytes.length)

/-- The order of byte slices. -/
def bytesCmp : Bytes → Bytes → Ordering
  | [], [] => .eq
  | [], _ :: _ => .lt
  | _ :: _, [] => .gt
  | a :: as, b :: bs => match compare a b with
    | .eq => bytesCmp as bs
    | other => other

/-- How an operation can fail to return a result. -/
inductive Fault where
  | error (e : DbError)
  | panic
  | fuel
  deriving DecidableEq, Repr

abbrev Outcome (α : Type) := Except Fault α

def lift {α : Type} : Result α → Outcome α
  | .ok a => .ok a
  | .error e => .error (.error e)

@[simp] theorem lift_ok {α : Type} (a : α) : lift (.ok a : Result α) = .ok a := rfl

/-! ### Pages -/

structure Tree where
  /-- The root that the metapage names. -/
  root : PageNum
  nextPage : PageNum
  pages : PageNum → Option Node

namespace Tree

/-- `create`: the metapage is page 0, the empty root leaf page 1. -/
def create : Tree where
  root := 1
  nextPage := 2
  pages := Function.update (fun _ => none) 1 (some (Node.init true))

def read (t : Tree) (page : PageNum) : Outcome Node :=
  match t.pages page with
  | some node => .ok node
  | none => .error (.error (.io "page does not exist"))

def write (t : Tree) (page : PageNum) (node : Node) : Tree :=
  { t with pages := Function.update t.pages page (some node) }

/-- The page that `new_page` adds to the file. -/
def newPage (t : Tree) : PageNum × Tree := (t.nextPage, { t with nextPage := t.nextPage + 1 })

end Tree

/-! ### Searching a node -/

/-- Without a value the probe stands before every entry with its key. -/
structure Probe (codec : KeyCodec) where
  key : codec.Key
  value : Option Bytes

section Search

variable (codec : KeyCodec)

def decodeKey (bytes : Bytes) : Result codec.Key := do
  let (key, consumed) ← codec.decodeKeyPrefix bytes
  failIf (consumed ≠ bytes.length) (corrupt "key has trailing bytes")
  return key

def leafKeyValue (e : Entry) : Result (codec.Key × Bytes) := do
  let key ← decodeKey codec e.key
  return (key, e.value.bytes)

def internalKeyValue (e : Entry) : Result (codec.Key × Bytes) := do
  let (key, consumed) ← codec.decodeKeyPrefix e.key
  return (key, e.key.drop consumed)

def entryCmp (isLeaf : Bool) (e : Entry) (probe : Probe codec) : Result Ordering := do
  let (entryKey, entryValue) ← if isLeaf then leafKeyValue codec e else internalKeyValue codec e
  return match codec.cmp entryKey probe.key with
    | .eq => match probe.value with
      | none => .gt
      | some value => bytesCmp entryValue value
    | other => other

/-- Whether an entry that compares so with the probe is before the bound. -/
def goesRight (strict : Bool) : Ordering → Bool
  | .lt => true
  | .eq => strict
  | .gt => false

/-- The binary search of `bound`; its first argument bounds `hi - lo`. -/
def boundLoop (node : Node) (isLeaf : Bool) (probe : Probe codec) (strict : Bool) :
    Nat → Nat → Nat → Outcome Nat
  | 0, lo, _ => .ok lo
  | width + 1, lo, hi =>
    if lo < hi then do
      let mid := lo + (hi - lo) / 2
      match node.entries[mid]? with
      | none => .error .panic
      | some e =>
        let order ← lift (entryCmp codec isLeaf e probe)
        if goesRight strict order then boundLoop node isLeaf probe strict width (mid + 1) hi
        else boundLoop node isLeaf probe strict width lo mid
    else .ok lo

def bound (node : Node) (isLeaf : Bool) (probe : Probe codec) (strict : Bool) : Outcome Nat :=
  boundLoop codec node isLeaf probe strict node.entryCount 0 node.entryCount

/-- The first entry that is not less than the probe. -/
def lowerBound (node : Node) (isLeaf : Bool) (probe : Probe codec) : Outcome Nat :=
  bound codec node isLeaf probe false

/-- The first entry that is greater than the probe. -/
def upperBound (node : Node) (isLeaf : Bool) (probe : Probe codec) : Outcome Nat :=
  bound codec node isLeaf probe true

def decodeChild : Payload → Result PageNum
  | .child page => .ok page
  | .location _ => .error (corrupt "index internal value is not a child pointer")

def childFor (node : Node) (probe : Probe codec) : Outcome PageNum := do
  let pos ← upperBound codec node false probe
  if pos = 0 then return node.link
  else match node.entries[pos - 1]? with
    | none => .error .panic
    | some e => lift (decodeChild e.value)

end Search

/-! ### Splitting a node -/

def validateIndexEntryFits (keyLen valueLen : Nat) : Result Unit :=
  failIf (entryFitsEmptyNode keyLen valueLen = false ∨
      entryFitsEmptyNode (keyLen + valueLen) CHILD_LEN = false)
    (.storage .programLimitExceeded "index entry is too large for a b-tree page")

def leafSeparator (e : Entry) : Bytes := e.key ++ e.value.bytes

def entriesWithInsertion (node : Node) (pos : Nat) (e : Entry) : List Entry :=
  if node.entryCount ≤ pos then node.entries ++ [e] else node.entries.insertIdx pos e

/-- `usize::clamp`. -/
def clamp (x min max : Nat) : Outcome Nat :=
  if max < min then .error .panic else .ok (Nat.max min (Nat.min x max))

def splitPoint (entries : List Entry) : Outcome Nat :=
  clamp (Balance.halfway Entry.storedLen (Balance.total Entry.storedLen entries) 0 entries) 1
    (entries.length - 1)

def entriesFitAsInternalNode (entries : List Entry) : Bool :=
  match (Node.init false).appendEntries 0 entries with
  | .ok _ => true
  | .error _ => false

def internalSplitPoint (entries : List Entry) (preferred : Nat) : Option Nat :=
  let fits := fun left => entriesFitAsInternalNode (entries.take (left + 1)) &&
    entriesFitAsInternalNode (entries.drop (left + 1))
  let preferred := min preferred (entries.length - 1)
  (List.range entries.length).findSome? fun distance =>
    if distance ≤ preferred ∧ fits (preferred - distance) then some (preferred - distance)
    else if distance ≠ 0 ∧ preferred + distance < entries.length ∧ fits (preferred + distance) then
      some (preferred + distance)
    else none

inductive InsertOutcome where
  | inserted
  /-- The separator to be inserted in the parent, and the page of the right half. -/
  | split (sepKey : Bytes) (rightPage : PageNum)
  deriving DecidableEq, Repr

structure PendingInsert where
  pos : Nat
  entry : Entry
  leaf : Bool

def splitLeaf (t : Tree) (page : PageNum) (node : Node) (entries : List Entry) (mid : Nat) :
    Outcome (Tree × InsertOutcome) := do
  let (rightNum, t) := t.newPage
  let right ← lift ((Node.init true).appendEntries 0 (entries.drop mid))
  let t := t.write rightNum (right.setLink node.link)
  let left ← lift ((Node.init true).appendEntries 0 (entries.take mid))
  let t := t.write page (left.setLink rightNum)
  match entries[mid]? with
  | none => .error .panic
  | some first => return (t, .split (leafSeparator first) rightNum)

/-- The separator that moves up stays in the left half as well, with the right half as
its child. -/
def splitInternal (t : Tree) (page : PageNum) (node : Node) (entries : List Entry) (mid : Nat) :
    Outcome (Tree × InsertOutcome) :=
  match internalSplitPoint entries mid with
  | none => .error (.error (corrupt "internal index split cannot fit a prefix-safe separator"))
  | some mid => match entries[mid]? with
    | none => .error .panic
    | some pushed => do
        let rightLeftmost ← lift (decodeChild pushed.value)
        let (rightNum, t) := t.newPage
        let right ← lift (((Node.init false).setLink rightLeftmost).appendEntries 0
          (entries.drop (mid + 1)))
        let t := t.write rightNum right
        let left ← lift (((Node.init false).setLink node.link).appendEntries 0 (entries.take mid))
        let left ← lift (left.insertEntry mid ⟨pushed.key, .child rightNum⟩)
        return (t.write page left, .split pushed.key rightNum)

def splitNode (t : Tree) (page : PageNum) (node : Node) (insert : PendingInsert) :
    Outcome (Tree × InsertOutcome) := do
  let entries := entriesWithInsertion node insert.pos insert.entry
  let mid ← splitPoint entries
  if insert.leaf then splitLeaf t page node entries mid else splitInternal t page node entries mid

/-! ### Operations -/

section Operations

variable (codec : KeyCodec)

/-- Put the entry in the node if it has room, and split the node otherwise. -/
def place (t : Tree) (page : PageNum) (node : Node) (insert : PendingInsert) :
    Outcome (Tree × InsertOutcome) :=
  if node.hasSpace insert.entry.key.length insert.entry.value.bytes.length then do
    let image ← lift (node.insertEntry insert.pos insert.entry)
    return (t.write page image, .inserted)
  else splitNode t page node insert

def rightLeafForProbe (t : Tree) (probe : Probe codec) : Nat → PageNum → Outcome (Option PageNum)
  | 0, _ => .error .fuel
  | fuel + 1, next =>
    if next = 0 then .ok none
    else do
      let node ← t.read next
      match node.entries with
      | [] => rightLeafForProbe t probe fuel node.link
      | e :: _ =>
        let order ← lift (entryCmp codec true e probe)
        return match order with
          | .lt | .eq => some next
          | .gt => none

/-- The leaf part of `insert_rec`. -/
def insertLeaf (t : Tree) (probe : Probe codec) (e : Entry) :
    Nat → PageNum → Outcome (Tree × InsertOutcome)
  | 0, _ => .error .fuel
  | fuel + 1, page => do
      let node ← t.read page
      let pos ← lowerBound codec node true probe
      let right ← (if pos = node.entryCount ∧ node.link ≠ 0 then
          rightLeafForProbe codec t probe fuel node.link
        else .ok none : Outcome (Option PageNum))
      match right with
      | some next => insertLeaf t probe e fuel next
      | none => place t page node ⟨pos, e, true⟩

/-- What `insert_rec` does in a node when its child has been dealt with. -/
def absorb (t : Tree) (page : PageNum) : InsertOutcome → Outcome (Tree × InsertOutcome)
  | .inserted => .ok (t, .inserted)
  | .split sepKey rightPage => do
      let node ← t.read page
      let (sepDecoded, consumed) ← lift (codec.decodeKeyPrefix sepKey)
      let pos ← lowerBound codec node false ⟨sepDecoded, some (sepKey.drop consumed)⟩
      place t page node ⟨pos, ⟨sepKey, .child rightPage⟩, false⟩

def insertRec (t : Tree) (probe : Probe codec) (e : Entry) :
    Nat → PageNum → Outcome (Tree × InsertOutcome)
  | 0, _ => .error .fuel
  | fuel + 1, page => do
      let node ← t.read page
      if node.isLeaf then insertLeaf codec t probe e fuel page
      else
        let child ← childFor codec node probe
        let (t, outcome) ← insertRec t probe e fuel child
        absorb codec t page outcome

def insert (fuel : Nat) (t : Tree) (key : codec.Key) (loc : RowLocation) : Outcome Tree := do
  let keyBytes ← lift (codec.encodeKey key)
  lift (validateIndexEntryFits keyBytes.length loc.encode.length)
  let (grown, outcome) ← insertRec codec t ⟨key, some loc.encode⟩
    ⟨keyBytes, .location loc.encode⟩ fuel t.root
  match outcome with
  | .inserted => return grown
  | .split sepKey rightPage =>
    let (newRoot, grown) := grown.newPage
    let node ← lift (((Node.init false).setLink t.root).insertEntry 0
      ⟨sepKey, .child rightPage⟩)
    return { grown.write newRoot node with root := newRoot }

def descendToLeaf (t : Tree) (probe : Probe codec) : Nat → PageNum → Outcome PageNum
  | 0, _ => .error .fuel
  | fuel + 1, page => do
      let node ← t.read page
      if node.isLeaf then return page
      else
        let child ← childFor codec node probe
        descendToLeaf t probe fuel child

def removeLoop (t : Tree) (key : codec.Key) (value : Bytes) : Nat → PageNum → Outcome (Tree × Bool)
  | 0, _ => .error .fuel
  | fuel + 1, page => do
      let node ← t.read page
      let pos ← lowerBound codec node true ⟨key, some value⟩
      match node.entries[pos]? with
      | some e =>
        let (entryKey, entryValue) ← lift (leafKeyValue codec e)
        if codec.cmp entryKey key = .eq ∧ entryValue = value then
          let image ← lift (node.removeEntry pos)
          return (t.write page image, true)
        else return (t, false)
      | none => if node.link = 0 then return (t, false) else removeLoop t key value fuel node.link

def remove (fuel : Nat) (t : Tree) (key : codec.Key) (loc : RowLocation) :
    Outcome (Tree × Bool) := do
  let leaf ← descendToLeaf codec t ⟨key, some loc.encode⟩ fuel t.root
  removeLoop codec t key loc.encode fuel leaf

end Operations

def firstLeaf (t : Tree) : Nat → PageNum → Outcome PageNum
  | 0, _ => .error .fuel
  | fuel + 1, page => do
      let node ← t.read page
      if node.isLeaf then return page else firstLeaf t fuel node.link

/-- The entries below `pos` of one leaf whose location is dead, from the last one on. -/
def removeDead (dead : List RowLocation) : Nat → Node → Outcome (Node × Nat)
  | 0, image => .ok (image, 0)
  | pos + 1, image => match image.entries[pos]? with
    | none => .error .panic
    | some e => do
        let value ← lift (RowLocation.decode e.value.bytes)
        if value ∈ dead then
          let image ← lift (image.removeEntry pos)
          let (image, removed) ← removeDead dead pos image
          return (image, removed + 1)
        else removeDead dead pos image

def removeValuesLoop (dead : List RowLocation) : Nat → Tree → PageNum → Outcome (Tree × Nat)
  | 0, _, _ => .error .fuel
  | fuel + 1, t, page => do
      let node ← t.read page
      let (image, removed) ← removeDead dead node.entryCount node
      let t := if removed = 0 then t else t.write page image
      if image.link = 0 then return (t, removed)
      else
        let (t, more) ← removeValuesLoop dead fuel t image.link
        return (t, removed + more)

def removeValuesIn (fuel : Nat) (t : Tree) (dead : List RowLocation) : Outcome (Tree × Nat) :=
  if dead = [] then .ok (t, 0)
  else do
    let leaf ← firstLeaf t fuel t.root
    removeValuesLoop dead fuel t leaf

/-! ### Runs -/

inductive Action (codec : KeyCodec) where
  | insert (fuel : Nat) (key : codec.Key) (loc : RowLocation)
  | remove (fuel : Nat) (key : codec.Key) (loc : RowLocation)
  | removeValuesIn (fuel : Nat) (dead : List RowLocation)

/-- The tree after an operation that returned. -/
def Tree.step {codec : KeyCodec} (t : Tree) : Action codec → Option Tree
  | .insert fuel key loc => (Index.insert codec fuel t key loc).toOption
  | .remove fuel key loc => (Index.remove codec fuel t key loc).toOption.map Prod.fst
  | .removeValuesIn fuel dead => (Index.removeValuesIn fuel t dead).toOption.map Prod.fst

end Saguaro.Index
