import MultiPartEvent.Reader.Event

/-!
# Splitting a payload into parts

The publisher cuts a payload into parts of 256 bytes and zero-pads the last one.  The parts
concatenate to the payload followed by fewer than 256 zero bytes (`splitPayload_spec`), which is
all an adopting protocol may rely on.
-/

namespace MultiPartEvent

/-- Width of one part: the payload of one `Misc` event. -/
def partLength : ℕ := payloadLength

@[simp] lemma partLength_eq : partLength = 256 := rfl

/-- Number of parts a payload of `length` bytes needs: `Math.ceil(length / 256)`. -/
def partCountFor (length : ℕ) : ℕ := (length + (partLength - 1)) / partLength

/-- Split a payload into 256-byte parts, zero-padding the last one. -/
def splitPayload (payload : Bytes) : Except JsError (List Bytes) :=
  if payload.length = 0 then .error (.rangeError (js "the payload is empty"))
  else .ok ((List.range (partCountFor payload.length)).map fun index =>
    zeroExtend partLength ((payload.drop (index * partLength)).take partLength))

/-- Cutting a list into pieces of one width and concatenating them gives the list back. -/
lemma flatten_pieces {α : Type*} {width n : ℕ} {l : List α} (h : l.length = n * width) :
    ((List.range n).map fun i => (l.drop (i * width)).take width).flatten = l := by
  induction n generalizing l with
  | zero => simpa [eq_comm] using h
  | succ n ih =>
    have hrest : (l.drop width).length = n * width := by
      rw [List.length_drop, h, Nat.succ_mul, Nat.add_sub_cancel]
    have hshift : ∀ i, (l.drop ((i + 1) * width)).take width =
        ((l.drop width).drop (i * width)).take width := by
      intro i
      rw [List.drop_drop, Nat.succ_mul, Nat.add_comm]
    rw [List.range_succ_eq_map, List.map_cons, List.flatten_cons, List.map_map]
    simp only [Function.comp_def, Nat.succ_eq_add_one, hshift]
    rw [ih hrest, Nat.zero_mul, List.drop_zero, List.take_append_drop]

/-- A piece of a list, zero-extended, is the piece of the list followed by zeros. -/
lemma zeroExtend_piece (l : Bytes) {start width padding : ℕ}
    (h : start + width ≤ l.length + padding) :
    zeroExtend width ((l.drop start).take width) =
      ((l ++ List.replicate padding 0).drop start).take width := by
  rw [zeroExtend, List.drop_append, List.take_append, List.length_take, List.length_drop,
    List.drop_replicate, List.take_replicate]
  congr 2
  omega

/-- The parts of a payload: each has 256 bytes, there is at least one, and together they are the
payload followed by fewer than 256 zero bytes. -/
theorem splitPayload_spec {payload : Bytes} {parts : List Bytes}
    (h : splitPayload payload = .ok parts) :
    parts ≠ [] ∧ (∀ part ∈ parts, part.length = 256) ∧
      ∃ padding < 256, (payload.length + padding) % 256 = 0 ∧
        parts.flatten = payload ++ List.replicate padding 0 := by
  unfold splitPayload at h
  split_ifs at h with hempty
  obtain ⟨count, hcount⟩ : ∃ n, n = partCountFor payload.length := ⟨_, rfl⟩
  rw [← hcount] at h
  have hbounds : payload.length ≤ count * 256 ∧ count * 256 < payload.length + 256 := by
    rw [hcount, partCountFor, partLength_eq]
    omega
  let padding := count * 256 - payload.length
  have hlength : (payload ++ List.replicate padding 0).length = count * 256 := by
    rw [List.length_append, List.length_replicate]
    omega
  have hpieces : parts = (List.range count).map fun index =>
      ((payload ++ List.replicate padding 0).drop (index * 256)).take 256 := by
    rw [← Except.ok.inj h]
    refine List.map_congr_left fun index hindex => ?_
    have hlt : index < count := List.mem_range.mp hindex
    have hfits : index * 256 + 256 ≤ payload.length + padding := by
      have hpad : payload.length + padding = count * 256 := by omega
      have hmul : (index + 1) * 256 ≤ count * 256 := Nat.mul_le_mul_right 256 hlt
      omega
    exact zeroExtend_piece payload hfits
  refine ⟨?_, ?_, padding, by omega, ?_, ?_⟩
  · intro hnil
    rw [hpieces, List.map_eq_nil_iff, List.range_eq_nil] at hnil
    omega
  · intro part hpart
    rw [hpieces] at hpart
    obtain ⟨index, hindex, rfl⟩ := List.mem_map.mp hpart
    have hlt : index < count := List.mem_range.mp hindex
    have hmul : (index + 1) * 256 ≤ count * 256 := Nat.mul_le_mul_right 256 hlt
    rw [List.length_take, List.length_drop, hlength]
    omega
  · have hsum : payload.length + padding = count * 256 := by omega
    rw [hsum, Nat.mul_mod_left]
  · rw [hpieces, flatten_pieces hlength]

end MultiPartEvent
