/-
How the client's bytes are cut into chunks.

The frames of the protocol are a `Framer`: a frame is judged when it is complete, and
then nothing behind it is looked at. So whether an error is reported does not depend on
the chunks, nor do the messages of a stream without an error.

A stream with an error is different. A call of `decode` that fails throws away the
messages it has decoded before, so that the session sees them only if they came in an
earlier chunk (`messages_lost_with_error`). What the session sees is then told by the
places of the frames in the stream: `layout` gives the end of each frame and the byte
that shows the error, and the frames delivered are those that end inside the chunks
before that byte (`decodeAll_spec`). `decode_segmentation` is the exact condition on
two cuttings.
-/

import Saguaro.Lib.Framing
import Saguaro.Protocol.Frontend

namespace Saguaro.Protocol

open Framing List Result Framer PostgresCodec

/-! ### Frames as a framer -/

section Frames

variable {buffer : Bytes} {offset minimum : Nat} {what : String}
  {decode : Nat → Bytes → Result ClientMessage} {result : Result (Option (ClientMessage × Bytes))}

theorem parse_eq_ok {raw : Int} {length : Nat}
    (parsed : FrameLength.parse raw minimum what = .ok length) : minimum ≤ length := by
  simp only [FrameLength.parse, bind_eq_ok, failIf_eq_ok, pure_eq_ok] at parsed
  obtain ⟨value, -, -, big, -, -, rfl⟩ := parsed
  exact not_lt.mp big

theorem frameLength_eq_ok {length : Nat}
    (eq : frameLength buffer offset minimum what = .ok length) : minimum ≤ length := by
  obtain ⟨raw, -, parsed⟩ := bind_eq_ok.mp eq
  exact parse_eq_ok parsed

/-- The length field is judged as soon as it is there. -/
theorem frameLength_append (head : offset + 4 ≤ buffer.length) (more : Bytes) :
    frameLength (buffer ++ more) offset minimum what = frameLength buffer offset minimum what := by
  have inside : ((buffer ++ more).drop offset).take 4 = (buffer.drop offset).take 4 := by
    rw [drop_append_of_le_length (by omega), take_append_of_le_length]
    rw [length_drop]
    omega
  rw [frameLength, inside, frameLength]

/-- What a frame at the front of the buffer comes to. -/
inductive Framed (buffer : Bytes) (offset minimum : Nat) (what : String)
    (decode : Nat → Bytes → Result ClientMessage) : Result (Option (ClientMessage × Bytes)) → Prop
  | short : buffer.length < offset + 4 → Framed buffer offset minimum what decode (.ok none)
  | partly {length : Nat} : frameLength buffer offset minimum what = .ok length →
      buffer.length < offset + length → Framed buffer offset minimum what decode (.ok none)
  | refused {err : DbError} : offset + 4 ≤ buffer.length →
      frameLength buffer offset minimum what = .error err →
      Framed buffer offset minimum what decode (.error err)
  | wrong {length : Nat} {err : DbError} : offset + 4 ≤ buffer.length →
      frameLength buffer offset minimum what = .ok length → offset + length ≤ buffer.length →
      decode length (buffer.take (offset + length)) = .error err →
      Framed buffer offset minimum what decode (.error err)
  | complete {length : Nat} {message : ClientMessage} : offset + 4 ≤ buffer.length →
      frameLength buffer offset minimum what = .ok length → offset + length ≤ buffer.length →
      decode length (buffer.take (offset + length)) = .ok message →
      Framed buffer offset minimum what decode (.ok (some (message, buffer.drop (offset + length))))

theorem framed (buffer : Bytes) (offset minimum : Nat) (what : String)
    (decode : Nat → Bytes → Result ClientMessage) :
    Framed buffer offset minimum what decode (decodeFrame buffer offset minimum what decode) := by
  unfold decodeFrame
  split
  · exact .short ‹_›
  rename_i head
  cases eq : frameLength buffer offset minimum what with
  | error err => exact .refused (not_lt.mp head) eq
  | ok length =>
    simp only [ok_bind]
    split
    · exact .partly eq ‹_›
    rename_i big
    cases decoded : decode length (buffer.take (offset + length)) with
    | error err => exact .wrong (not_lt.mp head) eq (not_lt.mp big) decoded
    | ok message => exact .complete (not_lt.mp head) eq (not_lt.mp big) decoded

theorem Framed.eq (framed : Framed buffer offset minimum what decode result) :
    decodeFrame buffer offset minimum what decode = result := by
  unfold decodeFrame
  cases framed with
  | short head =>
    rw [if_pos head]
    rfl
  | partly length few =>
    split
    · rfl
    · rw [length, ok_bind, if_pos few]
      rfl
  | refused head length =>
    rw [if_neg (not_lt.mpr head), length]
    rfl
  | wrong head length big decoded =>
    rw [if_neg (not_lt.mpr head), length, ok_bind, if_neg (not_lt.mpr big), decoded]
    rfl
  | complete head length big decoded =>
    rw [if_neg (not_lt.mpr head), length, ok_bind, if_neg (not_lt.mpr big), decoded]
    rfl

theorem take_drop_append {total : Nat} (big : total ≤ buffer.length) (more : Bytes) :
    (buffer ++ more).take total = buffer.take total ∧
      (buffer ++ more).drop total = buffer.drop total ++ more :=
  ⟨take_append_of_le_length big, drop_append_of_le_length big⟩

theorem decodeFrame_append_error {err : DbError}
    (bad : decodeFrame buffer offset minimum what decode = .error err) (more : Bytes) :
    decodeFrame (buffer ++ more) offset minimum what decode = .error err := by
  have here := framed buffer offset minimum what decode
  rw [bad] at here
  have longer : buffer.length ≤ (buffer ++ more).length := by simp
  apply Framed.eq
  cases here with
  | refused head length =>
    exact .refused (head.trans longer) ((frameLength_append head more).trans length)
  | wrong head length big decoded =>
    refine .wrong (head.trans longer) ((frameLength_append head more).trans length)
      (big.trans longer) ?_
    rw [(take_drop_append big more).1, decoded]

theorem decodeFrame_append_item {message : ClientMessage} {rest : Bytes}
    (found : decodeFrame buffer offset minimum what decode = .ok (some (message, rest)))
    (more : Bytes) : decodeFrame (buffer ++ more) offset minimum what decode =
      .ok (some (message, rest ++ more)) := by
  have here := framed buffer offset minimum what decode
  rw [found] at here
  have longer : buffer.length ≤ (buffer ++ more).length := by simp
  apply Framed.eq
  cases here with
  | complete head length big decoded =>
    rw [← (take_drop_append big more).2]
    refine .complete (head.trans longer) ((frameLength_append head more).trans length)
      (big.trans longer) ?_
    rw [(take_drop_append big more).1, decoded]

theorem decodeFrame_shrinks {message : ClientMessage} {rest : Bytes} (pos : 0 < minimum)
    (found : decodeFrame buffer offset minimum what decode = .ok (some (message, rest))) :
    rest.length < buffer.length := by
  have here := framed buffer offset minimum what decode
  rw [found] at here
  cases here with
  | complete head length big decoded =>
    have := frameLength_eq_ok length
    rw [length_drop]
    omega

end Frames

section Next

variable {buffer rest : Bytes} {message : ClientMessage} {err : DbError}

/-- How the frames that begin with a tag are read. -/
structure FrameKind where
  offset : Nat
  minimum : Nat
  what : String
  decode : Nat → Bytes → Result ClientMessage

/-- The kind of the frames that begin with `tag`, if there are any. -/
def frameKind (tag : UInt8) : Option FrameKind :=
  if isTagged tag then
    some ⟨1, 4, "tagged message", fun length packet => decodeBody tag length (packet.drop 5)⟩
  else if tag = 0 then some ⟨0, 8, "startup packet", fun _ packet => decodeStartupPacket packet⟩
  else none

theorem frameKind_minimum {tag : UInt8} {kind : FrameKind} (known : frameKind tag = some kind) :
    4 ≤ kind.minimum := by
  unfold frameKind at known
  split_ifs at known <;> cases known
  · exact le_rfl
  · exact Nat.le_add_left 4 4

/-- The first byte decides how the frame is read. -/
theorem decodeNext_cons (tag : UInt8) (rest : Bytes) : decodeNext (tag :: rest) =
    match frameKind tag with
    | some kind => decodeFrame (tag :: rest) kind.offset kind.minimum kind.what kind.decode
    | none => .error (protocolError "unsupported frontend message tag") := by
  rw [decodeNext, frameKind]
  split_ifs <;> rfl

theorem decodeNext_append_error (bad : decodeNext buffer = .error err) (more : Bytes) :
    decodeNext (buffer ++ more) = .error err := by
  cases buffer with
  | nil => cases bad
  | cons tag rest =>
    rw [cons_append]
    rw [decodeNext_cons] at bad ⊢
    cases known : frameKind tag with
    | none =>
      rw [known] at bad
      exact bad
    | some kind =>
      rw [known] at bad
      exact decodeFrame_append_error bad more

theorem decodeNext_append_item (found : decodeNext buffer = .ok (some (message, rest)))
    (more : Bytes) : decodeNext (buffer ++ more) = .ok (some (message, rest ++ more)) := by
  cases buffer with
  | nil => cases found
  | cons tag bytes =>
    rw [cons_append]
    rw [decodeNext_cons] at found ⊢
    cases known : frameKind tag with
    | none =>
      rw [known] at found
      cases found
    | some kind =>
      rw [known] at found
      exact decodeFrame_append_item found more

theorem decodeNext_shrinks (found : decodeNext buffer = .ok (some (message, rest))) :
    rest.length < buffer.length := by
  cases buffer with
  | nil => cases found
  | cons tag bytes =>
    rw [decodeNext_cons] at found
    cases known : frameKind tag with
    | none =>
      rw [known] at found
      cases found
    | some kind =>
      rw [known] at found
      exact decodeFrame_shrinks (lt_of_lt_of_le (by decide) (frameKind_minimum known)) found

end Next

def nextOf : Result (Option (ClientMessage × Bytes)) → Next UInt8 ClientMessage DbError
  | .error err => .fail err
  | .ok none => .more
  | .ok (some (message, rest)) => .item message rest

theorem nextOf_eq_fail {err : DbError} : nextOf result = .fail err ↔ result = .error err := by
  rcases result with _ | (_ | _) <;> simp [nextOf]

theorem nextOf_eq_item {message : ClientMessage}
    {rest : Bytes} : nextOf result = .item message rest ↔ result = .ok (some (message, rest)) := by
  rcases result with _ | (_ | _) <;> simp [nextOf, Prod.ext_iff]

/-- The frames of the protocol. -/
def frontend : Framer UInt8 ClientMessage DbError where
  next buffer := nextOf (decodeNext buffer)
  shrinks found := decodeNext_shrinks (nextOf_eq_item.mp found)
  item_append more found :=
    nextOf_eq_item.mpr (decodeNext_append_item (nextOf_eq_item.mp found) more)
  fail_append more failed :=
    nextOf_eq_fail.mpr (decodeNext_append_error (nextOf_eq_fail.mp failed) more)

/-! ### The codec drains its buffer -/

/-- What `decode` returns, by what its buffer drains to. -/
def returned (codec : PostgresCodec) (buf : Bytes) : Result (List ClientMessage × PostgresCodec) :=
  match frontend.drain (codec.buffer ++ buf) with
  | (_, .error err) => .error err
  | (messages, .ok rest) => .ok (messages, ⟨rest⟩)

theorem decodeLoop_eq (rounds : Nat) (buffer : Bytes) (messages : List ClientMessage)
    (big : buffer.length ≤ rounds) : decodeLoop rounds buffer messages =
      match frontend.drain buffer with
      | (_, .error err) => .error err
      | (more, .ok rest) => .ok (messages ++ more, rest) := by
  induction rounds generalizing buffer messages with
  | zero =>
    obtain rfl := length_eq_zero_iff.mp (Nat.le_zero.mp big)
    have nothing : frontend.next [] = .more := rfl
    rw [drain_of_more nothing]
    simp [decodeLoop]
  | succ rounds ih =>
    rw [decodeLoop]
    cases decoded : decodeNext buffer with
    | error err =>
      rw [drain_of_fail (nextOf_eq_fail.mpr decoded)]
      rfl
    | ok found =>
      cases found with
      | none =>
        have more : frontend.next buffer = .more := congrArg nextOf decoded
        rw [drain_of_more more]
        simp [ok_bind]
      | some found =>
        obtain ⟨message, rest⟩ := found
        rw [ok_bind, drain_of_item (nextOf_eq_item.mpr decoded)]
        have shorter := decodeNext_shrinks decoded
        dsimp only
        rw [ih rest _ (by omega)]
        obtain ⟨more, _ | _⟩ := frontend.drain rest <;> simp

theorem decode_eq (codec : PostgresCodec) (buf : Bytes) :
    codec.decode buf = returned codec buf := by
  have loop := decodeLoop_eq _ (codec.buffer ++ buf) [] le_rfl
  unfold decode returned
  dsimp only
  rw [loop]
  obtain ⟨messages, _ | _⟩ := frontend.drain (codec.buffer ++ buf) <;> rfl

/-! ### The places of the frames

What a stream of bytes is made of, told by its tags, length fields and bodies. -/

/-- The frame at the front: not all there, wrong (which its first `seen` bytes show), or a
message of `size` bytes. -/
inductive FirstFrame where
  | waiting
  | broken (seen : Nat)
  | whole (size : Nat)
  deriving DecidableEq

/-- The frame of a known kind at the front. -/
def FrameKind.first (kind : FrameKind) (bytes : Bytes) : FirstFrame :=
  if bytes.length < kind.offset + 4 then .waiting
  else match frameLength bytes kind.offset kind.minimum kind.what with
    | .error _ => .broken (kind.offset + 4)
    | .ok length =>
      if bytes.length < kind.offset + length then .waiting
      else if (kind.decode length (bytes.take (kind.offset + length))).isOk then
        .whole (kind.offset + length)
      else .broken (kind.offset + length)

def firstFrame : Bytes → FirstFrame
  | [] => .waiting
  | tag :: rest =>
    match frameKind tag with
    | none => .broken 1
    | some kind => kind.first (tag :: rest)

/-- The ends of the frames of a stream whose first byte is number `start`, and the number of
bytes that show an error, if it has one. -/
def layout : Nat → Nat → Bytes → List Nat × Option Nat
  | 0, _, _ => ([], none)
  | rounds + 1, start, bytes =>
    match firstFrame bytes with
    | .waiting => ([], none)
    | .broken seen => ([], some (start + seen))
    | .whole size =>
      let (ends, broken) := layout rounds (start + size) (bytes.drop size)
      ((start + size) :: ends, broken)

/-- The ends of the messages of a stream. -/
def frameEnds (bytes : Bytes) : List Nat := (layout (bytes.length + 1) 0 bytes).1

/-- How many bytes of the stream it takes to see its error. -/
def brokenAt (bytes : Bytes) : Option Nat := (layout (bytes.length + 1) 0 bytes).2

/-- How many bytes have come with the chunks before the one that brings byte `limit`, when `pos`
bytes have come already. -/
def arrived (limit : Nat) : Nat → List Bytes → Nat
  | pos, [] => pos
  | pos, chunk :: chunks =>
    if limit ≤ pos + chunk.length then pos else arrived limit (pos + chunk.length) chunks

/-- Before the error shows, the same messages of the stream are complete with both cuttings. -/
def SameFrames (first second : List Bytes) : Prop :=
  ∀ limit ∈ brokenAt first.flatten, ∀ last ∈ frameEnds first.flatten,
    last ≤ arrived limit 0 first ↔ last ≤ arrived limit 0 second

instance (first second : List Bytes) : Decidable (SameFrames first second) :=
  inferInstanceAs (Decidable (∀ limit ∈ brokenAt first.flatten, ∀ last ∈ frameEnds first.flatten,
    last ≤ arrived limit 0 first ↔ last ≤ arrived limit 0 second))

section Layout

variable {kind : FrameKind} {bytes more : Bytes} {size seen : Nat}

/-- The first frame as the decoder of its kind reads it. -/
theorem nextOf_decodeFrame (big : 4 ≤ kind.minimum) (bytes : Bytes) :
    let next := nextOf (decodeFrame bytes kind.offset kind.minimum kind.what kind.decode)
    match kind.first bytes with
    | .waiting => next = .more
    | .broken seen => 0 < seen ∧ seen ≤ bytes.length ∧ ∃ err, next = .fail err
    | .whole size => 0 < size ∧ size ≤ bytes.length ∧ ∃ message,
        next = .item message (bytes.drop size) := by
  intro next
  rw [FrameKind.first]
  split_ifs with few
  · exact congrArg nextOf (Framed.short few).eq
  rw [not_lt] at few
  cases length : frameLength bytes kind.offset kind.minimum kind.what with
  | error err => exact ⟨by omega, few, err, congrArg nextOf (Framed.refused few length).eq⟩
  | ok total =>
    have least := frameLength_eq_ok length
    dsimp only
    split_ifs with cut fine
    · exact congrArg nextOf (Framed.partly length cut).eq
    · cases decoded : kind.decode total (bytes.take (kind.offset + total)) with
      | error err =>
        rw [decoded] at fine
        cases fine
      | ok message =>
        refine ⟨by omega, not_lt.mp cut, message, ?_⟩
        exact congrArg nextOf (Framed.complete few length (not_lt.mp cut) decoded).eq
    · cases decoded : kind.decode total (bytes.take (kind.offset + total)) with
      | error err =>
        refine ⟨by omega, not_lt.mp cut, err, ?_⟩
        exact congrArg nextOf (Framed.wrong few length (not_lt.mp cut) decoded).eq
      | ok message =>
        rw [decoded] at fine
        exact absurd rfl fine

theorem next_firstFrame (bytes : Bytes) :
    match firstFrame bytes with
    | .waiting => frontend.next bytes = .more
    | .broken seen => 0 < seen ∧ seen ≤ bytes.length ∧ ∃ err, frontend.next bytes = .fail err
    | .whole size => 0 < size ∧ size ≤ bytes.length ∧ ∃ message,
        frontend.next bytes = .item message (bytes.drop size) := by
  cases bytes with
  | nil => rfl
  | cons tag rest =>
    have reads : frontend.next (tag :: rest) = nextOf (decodeNext (tag :: rest)) := rfl
    rw [reads, decodeNext_cons, firstFrame]
    cases known : frameKind tag with
    | none => exact ⟨Nat.one_pos, Nat.le_add_left 1 _, _, rfl⟩
    | some kind => exact nextOf_decodeFrame (frameKind_minimum known) (tag :: rest)

/-- More than `few` bytes are needed to know the frame. -/
def FirstFrame.Beyond (few : Nat) : FirstFrame → Prop
  | .waiting => True
  | .broken seen => few < seen
  | .whole size => few < size

theorem FrameKind.first_append_of_waiting (big : 4 ≤ kind.minimum) (more : Bytes)
    (waits : kind.first bytes = .waiting) : (kind.first (bytes ++ more)).Beyond bytes.length := by
  rw [FrameKind.first]
  split_ifs with short
  · trivial
  cases length : frameLength (bytes ++ more) kind.offset kind.minimum kind.what with
  | error err =>
    refine not_le.mp fun head => ?_
    -- the length field was there before, and already wrong
    rw [frameLength_append head] at length
    rw [FrameKind.first, if_neg (not_lt.mpr head), length] at waits
    cases waits
  | ok total =>
    have least := frameLength_eq_ok length
    have few : bytes.length < kind.offset + total := by
      refine not_le.mp fun whole => ?_
      have head : kind.offset + 4 ≤ bytes.length := by omega
      rw [frameLength_append head] at length
      rw [FrameKind.first, if_neg (not_lt.mpr head), length] at waits
      dsimp only at waits
      rw [if_neg (not_lt.mpr whole)] at waits
      split_ifs at waits
    dsimp only
    split_ifs
    exacts [trivial, few, few]

theorem FrameKind.first_append (more : Bytes) (known : kind.first bytes ≠ .waiting) :
    kind.first (bytes ++ more) = kind.first bytes := by
  have longer : bytes.length ≤ (bytes ++ more).length := by simp
  by_cases head : bytes.length < kind.offset + 4
  · exact absurd (if_pos head) known
  rw [FrameKind.first, if_neg head] at known
  rw [not_lt] at head
  rw [FrameKind.first, FrameKind.first, if_neg (not_lt.mpr head),
    if_neg (not_lt.mpr (head.trans longer)), frameLength_append head]
  cases length : frameLength bytes kind.offset kind.minimum kind.what with
  | error err => rfl
  | ok total =>
    rw [length] at known
    dsimp only at known ⊢
    by_cases cut : bytes.length < kind.offset + total
    · exact absurd (if_pos cut) known
    rw [not_lt] at cut
    rw [if_neg (not_lt.mpr cut), if_neg (not_lt.mpr (cut.trans longer)),
      take_append_of_le_length cut]

theorem firstFrame_append_of_waiting (more : Bytes) (waits : firstFrame bytes = .waiting) :
    (firstFrame (bytes ++ more)).Beyond bytes.length := by
  cases bytes with
  | nil =>
    have reads := next_firstFrame ([] ++ more)
    revert reads
    cases firstFrame ([] ++ more) with
    | waiting => exact fun _ => trivial
    | broken seen => exact And.left
    | whole size => exact And.left
  | cons tag rest =>
    rw [cons_append]
    rw [firstFrame] at waits ⊢
    cases known : frameKind tag with
    | none =>
      rw [known] at waits
      cases waits
    | some kind =>
      rw [known] at waits
      exact FrameKind.first_append_of_waiting (frameKind_minimum known) more waits

/-- What is known of the first frame does not change with the bytes behind it. -/
theorem firstFrame_append (more : Bytes) (known : firstFrame bytes ≠ .waiting) :
    firstFrame (bytes ++ more) = firstFrame bytes := by
  cases bytes with
  | nil => exact absurd rfl known
  | cons tag rest =>
    rw [cons_append]
    rw [firstFrame] at known ⊢
    rw [firstFrame]
    cases kind : frameKind tag with
    | none => rfl
    | some kind' =>
      rw [kind] at known
      exact FrameKind.first_append more known

theorem firstFrame_of_more (found : frontend.next bytes = .more) : firstFrame bytes = .waiting := by
  have reads := next_firstFrame bytes
  cases frame : firstFrame bytes with
  | waiting => rfl
  | broken seen =>
    rw [frame] at reads
    obtain ⟨-, -, err, failed⟩ := reads
    cases found.symm.trans failed
  | whole size =>
    rw [frame] at reads
    obtain ⟨-, -, message, item⟩ := reads
    cases found.symm.trans item

theorem firstFrame_of_fail {err : DbError} (found : frontend.next bytes = .fail err) :
    ∃ seen ≤ bytes.length, firstFrame bytes = .broken seen := by
  have reads := next_firstFrame bytes
  cases frame : firstFrame bytes with
  | waiting =>
    rw [frame] at reads
    cases found.symm.trans reads
  | broken seen =>
    rw [frame] at reads
    exact ⟨seen, reads.2.1, rfl⟩
  | whole size =>
    rw [frame] at reads
    obtain ⟨-, -, message, item⟩ := reads
    cases found.symm.trans item

theorem firstFrame_of_item {message : ClientMessage} {rest : Bytes}
    (found : frontend.next bytes = .item message rest) :
    ∃ size ≤ bytes.length, firstFrame bytes = .whole size ∧ rest = bytes.drop size := by
  have reads := next_firstFrame bytes
  cases frame : firstFrame bytes with
  | waiting =>
    rw [frame] at reads
    cases found.symm.trans reads
  | broken seen =>
    rw [frame] at reads
    obtain ⟨-, -, err, failed⟩ := reads
    cases found.symm.trans failed
  | whole size =>
    rw [frame] at reads
    obtain ⟨-, inside, other, item⟩ := reads
    cases found.symm.trans item
    exact ⟨size, inside, rfl, rfl⟩

end Layout

/-! ### Chunks -/

/-- The layout of a stream as a relation, free of the number of rounds. -/
inductive Layout : Nat → Bytes → List Nat → Option Nat → Prop
  | waiting {start : Nat} {bytes : Bytes} : firstFrame bytes = .waiting → Layout start bytes [] none
  | broken {start seen : Nat} {bytes : Bytes} : firstFrame bytes = .broken seen →
      Layout start bytes [] (some (start + seen))
  | whole {start size : Nat} {bytes : Bytes} {ends : List Nat} {broken : Option Nat} :
      firstFrame bytes = .whole size → Layout (start + size) (bytes.drop size) ends broken →
      Layout start bytes ((start + size) :: ends) broken

theorem layout_spec (rounds start : Nat) (bytes : Bytes) (enough : bytes.length < rounds) :
    Layout start bytes (layout rounds start bytes).1 (layout rounds start bytes).2 := by
  induction rounds generalizing start bytes with
  | zero => omega
  | succ rounds ih =>
    have reads := next_firstFrame bytes
    rw [layout]
    cases frame : firstFrame bytes with
    | waiting => exact .waiting frame
    | broken seen => exact .broken frame
    | whole size =>
      rw [frame] at reads
      obtain ⟨pos, inside, -⟩ := reads
      exact .whole frame (ih _ _ (by rw [length_drop]; omega))

section Chunks

variable {start : Nat} {bytes buffer more : Bytes} {ends : List Nat} {broken : Option Nat}

/-- Everything the layout names lies behind bytes that are only the beginning of a frame. -/
theorem Layout.beyond (places : Layout start (buffer ++ more) ends broken)
    (waits : firstFrame buffer = .waiting) :
    (∀ last ∈ ends, start + buffer.length < last) ∧
      ∀ limit ∈ broken, start + buffer.length < limit := by
  generalize whole : buffer ++ more = bytes at places
  induction places generalizing buffer more with
  | waiting => simp
  | broken frame =>
    subst whole
    have beyond := firstFrame_append_of_waiting more waits
    rw [frame] at beyond
    simp only [not_mem_nil, false_implies, implies_true, Option.mem_some_iff, forall_eq', true_and]
    exact Nat.add_lt_add_left beyond _
  | @whole start size bytes ends broken frame rest ih =>
    subst whole
    have beyond := firstFrame_append_of_waiting more waits
    rw [frame] at beyond
    have far : start + buffer.length < start + size := Nat.add_lt_add_left beyond _
    obtain ⟨later, limits⟩ := @ih [] _ rfl (nil_append _)
    rw [length_nil, Nat.add_zero] at later limits
    refine ⟨forall_mem_cons.mpr ⟨far, fun last mem => far.trans (later last mem)⟩, fun limit mem => ?_⟩
    exact far.trans (limits limit mem)

/-- A frame that is complete in the buffer is the first one of the stream. -/
theorem Layout.of_whole {size : Nat} (places : Layout start (buffer ++ more) ends broken)
    (inside : size ≤ buffer.length) (frame : firstFrame buffer = .whole size) :
    ∃ later, ends = (start + size) :: later ∧
      Layout (start + size) (buffer.drop size ++ more) later broken := by
  have first : firstFrame (buffer ++ more) = .whole size := by
    rw [firstFrame_append more (by simp [frame]), frame]
  cases places with
  | waiting frame' => cases first.symm.trans frame'
  | broken frame' => cases first.symm.trans frame'
  | whole frame' after =>
    cases first.symm.trans frame'
    rw [drop_append_of_le_length inside] at after
    exact ⟨_, rfl, after⟩

/-- The messages taken off the front of a stream are its first frames. -/
theorem Layout.of_drain_ok {messages : List ClientMessage} {rest : Bytes}
    (places : Layout start (buffer ++ more) ends broken)
    (drained : frontend.drain buffer = (messages, .ok rest)) :
    ∃ early later next, ends = early ++ later ∧ early.length = messages.length ∧
      (∀ last ∈ early, last ≤ start + buffer.length) ∧ Layout next (rest ++ more) later broken ∧
      next + rest.length = start + buffer.length := by
  induction buffer using Framer.drain.induct frontend generalizing start messages ends with
  | case1 buffer found =>
    rw [drain_of_more found] at drained
    cases drained
    exact ⟨[], ends, start, rfl, rfl, by simp, places, rfl⟩
  | case2 buffer error found =>
    rw [drain_of_fail found] at drained
    cases drained
  | case3 buffer item left found ih =>
    rw [drain_of_item found] at drained
    obtain ⟨size, inside, frame, rfl⟩ := firstFrame_of_item found
    obtain ⟨ends, rfl, after⟩ := places.of_whole inside frame
    obtain ⟨rfl, tail⟩ := Prod.mk.inj drained
    obtain ⟨early, later, next, rfl, count, before, places, at_rest⟩ := ih after (Prod.ext rfl tail)
    rw [length_drop] at before at_rest
    refine ⟨_ :: early, later, next, rfl, congrArg (· + 1) count, ?_, places, by omega⟩
    refine forall_mem_cons.mpr ⟨by omega, fun last mem => ?_⟩
    have := before last mem
    omega

/-- An error while a buffer is drained is the stream's own, shown inside the buffer. -/
theorem Layout.of_drain_error {messages : List ClientMessage} {err : DbError}
    (places : Layout start (buffer ++ more) ends broken)
    (drained : frontend.drain buffer = (messages, .error err)) :
    ∃ limit ≤ start + buffer.length, broken = some limit := by
  induction buffer using Framer.drain.induct frontend generalizing start messages ends with
  | case1 buffer found =>
    rw [drain_of_more found] at drained
    cases drained
  | case2 buffer error found =>
    obtain ⟨seen, inside, frame⟩ := firstFrame_of_fail found
    have first : firstFrame (buffer ++ more) = .broken seen := by
      rw [firstFrame_append more (by simp [frame]), frame]
    cases places with
    | waiting frame' => cases first.symm.trans frame'
    | broken frame' =>
      cases first.symm.trans frame'
      exact ⟨_, Nat.add_le_add_left inside _, rfl⟩
    | whole frame' after => cases first.symm.trans frame'
  | case3 buffer item left found ih =>
    rw [drain_of_item found] at drained
    obtain ⟨size, inside, frame, rfl⟩ := firstFrame_of_item found
    obtain ⟨ends, rfl, after⟩ := places.of_whole inside frame
    obtain ⟨limit, early, rfl⟩ := ih after (Prod.ext rfl (Prod.mk.inj drained).2)
    rw [length_drop] at early
    exact ⟨limit, by omega, rfl⟩

def errorOf : Except DbError Bytes → Option DbError
  | .error err => some err
  | .ok _ => none

/-- How many of the messages that end at `ends` have come when the error shows. -/
def delivered (ends : List Nat) (broken : Option Nat) (pos : Nat) (chunks : List Bytes) : Nat :=
  match broken with
  | none => ends.length
  | some limit => ends.countP (· ≤ arrived limit pos chunks)

theorem le_arrived (limit pos : Nat) (chunks : List Bytes) : pos ≤ arrived limit pos chunks := by
  induction chunks generalizing pos with
  | nil => exact le_rfl
  | cons chunk chunks ih =>
    rw [arrived]
    split_ifs
    · exact le_rfl
    · exact (Nat.le_add_right pos _).trans (ih _)

theorem Layout.length_drain (places : Layout start bytes ends broken) :
    (frontend.drain bytes).1.length = ends.length := by
  induction places with
  | @waiting _ bytes frame =>
    have reads := next_firstFrame bytes
    rw [frame] at reads
    rw [drain_of_more reads]
    rfl
  | @broken _ _ bytes frame =>
    have reads := next_firstFrame bytes
    rw [frame] at reads
    obtain ⟨-, -, err, failed⟩ := reads
    rw [drain_of_fail failed]
    rfl
  | @whole _ _ bytes _ _ frame rest ih =>
    have reads := next_firstFrame bytes
    rw [frame] at reads
    obtain ⟨-, -, message, item⟩ := reads
    rw [drain_of_item item]
    exact congrArg (· + 1) ih

/-- **The calls of `decode` against the whole stream**: they report its error, and deliver the
messages that were complete before the chunk that shows it. -/
theorem decodeAll_spec (codec : PostgresCodec) (chunks : List Bytes)
    (waits : frontend.next codec.buffer = .more)
    (places : Layout start (codec.buffer ++ chunks.flatten) ends broken) :
    let whole := frontend.drain (codec.buffer ++ chunks.flatten)
    (codec.decodeAll chunks).2 = errorOf whole.2 ∧ (codec.decodeAll chunks).1 =
      whole.1.take (delivered ends broken (start + codec.buffer.length) chunks) := by
  induction chunks generalizing codec start ends with
  | nil =>
    intro whole
    have drained : whole = ([], .ok (codec.buffer ++ [].flatten)) := by
      refine drain_of_more ?_
      rwa [flatten_nil, append_nil]
    rw [drained]
    exact ⟨rfl, take_nil.symm⟩
  | cons chunk chunks ih =>
    intro whole
    rw [flatten_cons, ← append_assoc] at places
    have split : whole = frontend.drain ((codec.buffer ++ chunk) ++ chunks.flatten) := by
      rw [append_assoc, ← flatten_cons]
    have call := decode_eq codec chunk
    have size : start + codec.buffer.length + chunk.length =
        start + (codec.buffer ++ chunk).length := by rw [length_append, Nat.add_assoc]
    rcases drained : frontend.drain (codec.buffer ++ chunk) with ⟨messages, err | rest⟩
    · rw [returned, drained] at call
      rw [split, drain_append_of_error drained, decodeAll, call]
      refine ⟨rfl, ?_⟩
      -- the error shows in this chunk, and no message ended in the chunks before
      obtain ⟨limit, shows, rfl⟩ := places.of_drain_error drained
      rw [append_assoc] at places
      have none : ends.countP (· ≤ start + codec.buffer.length) = 0 := by
        rw [countP_eq_zero]
        intro last mem
        have := (places.beyond (firstFrame_of_more waits)).1 last mem
        simpa using this
      rw [delivered, arrived, if_pos (size ▸ shows), none, take_zero]
    rw [returned, drained] at call
    obtain ⟨early, later, next, rfl, count, before, after, stands⟩ := places.of_drain_ok drained
    have waits' := next_of_drain_ok drained
    obtain ⟨error, all⟩ := ih ⟨rest⟩ waits' after
    rw [split, drain_append_of_ok drained, decodeAll, call]
    refine ⟨error, ?_⟩
    dsimp only at all ⊢
    have pos : next + rest.length = start + codec.buffer.length + chunk.length := by
      rw [size, stands]
    rw [all, pos]
    have more : delivered (early ++ later) broken (start + codec.buffer.length) (chunk :: chunks) =
        messages.length + delivered later broken (start + codec.buffer.length + chunk.length) chunks := by
      cases broken with
      | none => rw [delivered, delivered, length_append, count]
      | some limit =>
        have far := (after.beyond (firstFrame_of_more waits')).2 limit rfl
        rw [delivered, arrived, if_neg (by omega), countP_append, ← count, delivered,
          countP_eq_length.mpr]
        intro last mem
        have := before last mem
        have := le_arrived limit (start + codec.buffer.length + chunk.length) chunks
        simp only [decide_eq_true_eq]
        omega
    rw [more, take_length_add_append]

theorem countP_le_eq_iff (ends : List Nat) (a b : Nat) :
    ends.countP (· ≤ a) = ends.countP (· ≤ b) ↔ ∀ last ∈ ends, last ≤ a ↔ last ≤ b := by
  wlog le : a ≤ b generalizing a b
  · rw [eq_comm, this b a (by omega)]
    exact forall₂_congr fun _ _ => iff_comm
  induction ends with
  | nil => simp
  | cons last ends ih =>
    have mono : ends.countP (· ≤ a) ≤ ends.countP (· ≤ b) := by
      refine countP_mono_left fun last _ small => ?_
      simp only [decide_eq_true_eq] at small ⊢
      omega
    rw [forall_mem_cons, ← ih, countP_cons, countP_cons]
    simp only [decide_eq_true_eq]
    split_ifs <;> omega

theorem delivered_eq_iff (ends : List Nat) (broken : Option Nat) (first second : List Bytes) :
    delivered ends broken 0 first = delivered ends broken 0 second ↔ ∀ limit ∈ broken,
      ∀ last ∈ ends, last ≤ arrived limit 0 first ↔ last ≤ arrived limit 0 second := by
  cases broken with
  | none => simp [delivered]
  | some limit => simp [delivered, countP_le_eq_iff]

theorem delivered_le_length (ends : List Nat) (broken : Option Nat) (chunks : List Bytes) :
    delivered ends broken 0 chunks ≤ ends.length := by
  cases broken with
  | none => exact le_rfl
  | some limit => exact countP_le_length

theorem decodeAll_new (chunks : List Bytes) (stream : chunks.flatten = bytes) :
    (PostgresCodec.new.decodeAll chunks).2 = errorOf (frontend.drain bytes).2 ∧
      (PostgresCodec.new.decodeAll chunks).1 =
        (frontend.drain bytes).1.take (delivered (frameEnds bytes) (brokenAt bytes) 0 chunks) := by
  subst stream
  exact decodeAll_spec .new chunks rfl (layout_spec _ 0 chunks.flatten (Nat.lt_succ_self _))

end Chunks

/-- **Segmentation.** Two ways of cutting one stream of bytes report the same error or both none.
They deliver the same messages exactly if no message ends between the last cut of the one and the
last cut of the other before the error shows (`SameFrames`, which holds of every two cuttings of a
stream without an error). -/
theorem decode_segmentation (first second : List Bytes) (same : first.flatten = second.flatten) :
    (PostgresCodec.new.decodeAll first).2 = (PostgresCodec.new.decodeAll second).2 ∧
    ((PostgresCodec.new.decodeAll first).1 = (PostgresCodec.new.decodeAll second).1 ↔
      SameFrames first second) := by
  obtain ⟨error, all⟩ := decodeAll_new first rfl
  obtain ⟨error', all'⟩ := decodeAll_new second same.symm
  refine ⟨error.trans error'.symm, ?_⟩
  have most (chunks : List Bytes) : delivered (frameEnds first.flatten) (brokenAt first.flatten) 0
      chunks ≤ (frontend.drain first.flatten).1.length := by
    rw [(layout_spec _ 0 first.flatten (Nat.lt_succ_self _)).length_drain]
    exact delivered_le_length _ _ chunks
  rw [all, all', SameFrames, ← delivered_eq_iff]
  constructor
  · intro equal
    have lengths := congrArg length equal
    rwa [length_take_of_le (most first), length_take_of_le (most second)] at lengths
  · intro equal
    rw [equal]

/-- A Sync, a Flush and a byte that is no tag. Cut inside the Sync and behind the Flush, or behind
both messages, the session gets both; cut behind the Sync it gets the Sync only. -/
theorem decode_segmentation_split :
    (PostgresCodec.new.decodeAll [[0x53, 0, 0], [0, 4, 0x48, 0, 0, 0, 4], [0x7a]]).1 =
      (PostgresCodec.new.decodeAll [[0x53, 0, 0, 0, 4], [0x48, 0, 0, 0, 4], [0x7a]]).1 ∧
    (PostgresCodec.new.decodeAll [[0x53, 0, 0], [0, 4, 0x48, 0, 0, 0, 4], [0x7a]]).1 ≠
      (PostgresCodec.new.decodeAll [[0x53, 0, 0, 0, 4], [0x48, 0, 0, 0, 4, 0x7a]]).1 := by
  constructor
  · exact (decode_segmentation _ _ rfl).2.mpr (by decide +kernel)
  · intro equal
    have same := (decode_segmentation [[0x53, 0, 0], [0, 4, 0x48, 0, 0, 0, 4], [0x7a]]
      [[0x53, 0, 0, 0, 4], [0x48, 0, 0, 0, 4, 0x7a]] rfl).2.mp equal
    revert same
    decide +kernel

/-- **Messages are lost with an error.** A Sync is delivered if the byte that is no tag comes in
the next chunk, and is not if it comes in the same one. -/
theorem messages_lost_with_error : PostgresCodec.new.decodeAll [[0x53, 0, 0, 0, 4], [0x7a]] =
      ([.sync], some (protocolError "unsupported frontend message tag")) ∧
    PostgresCodec.new.decodeAll [[0x53, 0, 0, 0, 4, 0x7a]] =
      ([], some (protocolError "unsupported frontend message tag")) := by
  decide +kernel

end Saguaro.Protocol
