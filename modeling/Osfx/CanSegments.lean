import Osfx.ProtocolMatrix

/-!
# Segments on the CAN link

A frame carries its number in one byte, so the numbers of a payload of more than 256 frames
begin again. `can_undone_iff` says which payloads are put together from their frames whatever
order these arrive in, and which are the only ones with their frames.
-/

namespace Osfx

open Reassembly

/-- The number of a frame. -/
def canIndex (f : MatrixFrame) : Nat := (f.frame.headD 0).toNat

/-- The payload bytes of a frame. -/
def canCarried (f : MatrixFrame) : Bytes := f.frame.drop 2

/-- Every frame carries 1 to 8 payload bytes, and their number is its second byte. -/
def FramesExact (emitted : List MatrixFrame) : Prop :=
  ∀ f ∈ emitted, 1 ≤ (canCarried f).length ∧ (canCarried f).length ≤ 8 ∧
    ∃ idx, f.frame = idx :: UInt8.ofNat (canCarried f).length :: canCarried f

/-- No other payload is sent in these frames, in whatever order. -/
def FramesDetermine (emitted : List MatrixFrame) (payload : Bytes) : Prop :=
  ∀ emitFn q pm, sendCan (matrixInit emitFn) q = (true, pm) → pm.emitted.Perm emitted → q = payload

/-- The frames, put in the order of their numbers, carry the payload. -/
def IndexOrderMakes (emitted : List MatrixFrame) (payload : Bytes) : Prop :=
  ∀ t : List MatrixFrame, t.Perm emitted → t.Pairwise (fun f g => canIndex f ≤ canIndex g) →
    (t.map canCarried).flatten = payload

/-- A payload can be had back from the frames it was sent in. -/
structure CanUndone (emitted : List MatrixFrame) (payload : Bytes) : Prop where
  exact_length : FramesExact emitted
  determine : FramesDetermine emitted payload
  order : IndexOrderMakes emitted payload

/-! ## Frames as numbered pieces -/

def frameOf (a : Nat × Bytes) : MatrixFrame := ⟨ascii "can", canFrame a.1 a.2⟩

def pieceOf (f : MatrixFrame) : Nat × Bytes := (canIndex f, canCarried f)

theorem canFrame_mod (idx : Nat) (chunk : Bytes) :
    canFrame idx chunk = canFrame (idx % 256) chunk := by
  have hmod : UInt8.ofNat idx = UInt8.ofNat (idx % 256) := by
    apply UInt8.toNat.inj
    rw [UInt8.toNat_ofNat', UInt8.toNat_ofNat']
    omega
  rw [canFrame, hmod, ← canFrame]

theorem emitted_eq {emitFn : Option (List MatrixFrame → MatrixFrame → Bool)} {payload : Bytes}
    {pm : ProtocolMatrix} (h : sendCan (matrixInit emitFn) payload = (true, pm)) :
    pm.emitted = (tagged 256 (pieces 8 payload)).map frameOf := by
  rw [sendCan_true h, canFrames, matrixInit, List.nil_append, map_mapIdx, tagged, map_mapIdx]
  simp only [frameOf, ← canFrame_mod]

theorem pieceOf_frameOf {cs : List Bytes} {a : Nat × Bytes} (ha : a ∈ tagged 256 cs) :
    pieceOf (frameOf a) = a := by
  obtain ⟨r, x⟩ := a
  obtain ⟨k, -, rfl⟩ := mem_tagged.mp ha
  simp only [pieceOf, frameOf, canIndex, canCarried, canFrame, List.headD_cons, List.drop_succ_cons,
    List.drop_zero, UInt8.toNat_ofNat']
  rw [Nat.mod_mod_of_dvd _ (by decide)]

theorem map_pieceOf (cs : List Bytes) :
    ((tagged 256 cs).map frameOf).map pieceOf = tagged 256 cs := by
  rw [List.map_map]
  exact (List.map_congr_left fun a ha => pieceOf_frameOf ha).trans (List.map_id _)

theorem map_carried (t : List MatrixFrame) :
    (t.map canCarried).flatten = content (t.map pieceOf) := by
  rw [content, List.map_map]
  rfl

section
variable {emitFn : Option (List MatrixFrame → MatrixFrame → Bool)} {payload : Bytes}
  {pm : ProtocolMatrix} (h : sendCan (matrixInit emitFn) payload = (true, pm))
include h

theorem frames_exact : FramesExact pm.emitted := by
  intro f hf
  rw [emitted_eq h] at hf
  obtain ⟨⟨r, x⟩, ha, rfl⟩ := List.mem_map.mp hf
  obtain ⟨k, hx, -⟩ := mem_tagged.mp ha
  obtain ⟨hpos, hle⟩ := (isPieces_pieces (by decide) payload).bounds x (List.mem_of_getElem? hx)
  exact ⟨hpos, hle, _, rfl⟩

theorem determine_iff :
    FramesDetermine pm.emitted payload ↔ SameNumberSame 8 256 (pieces 8 payload) := by
  rw [← only_source_iff (isPieces_pieces (by decide) payload)]
  constructor
  · intro honly ds hd hperm
    obtain ⟨pm', h'⟩ := sendCan_takesAll ds.flatten
    have hq := honly takesAll ds.flatten pm' h' ?_
    · rw [← hq, pieces_flatten (by decide) hd]
    · rw [emitted_eq h', emitted_eq h, pieces_flatten (by decide) hd]
      exact hperm.map frameOf
  · intro honly emitFn' q pm' h' hperm
    rw [emitted_eq h', emitted_eq h] at hperm
    have htagged := hperm.map pieceOf
    rw [map_pieceOf, map_pieceOf] at htagged
    have hpieces := honly _ (isPieces_pieces (by decide) q) htagged
    rw [← flatten_pieces (show 0 < 8 by decide) q, hpieces, flatten_pieces (by decide)]

theorem index_order_iff :
    IndexOrderMakes pm.emitted payload ↔ OrderMakes 256 (pieces 8 payload) := by
  constructor
  · intro horder t hperm hsorted
    have hself : (t.map frameOf).map pieceOf = t := by
      rw [List.map_map]
      exact (List.map_congr_left fun a ha => pieceOf_frameOf (hperm.mem_iff.mp ha)).trans
        (List.map_id t)
    have hmake := horder (t.map frameOf) (emitted_eq h ▸ hperm.map frameOf) ?_
    · rw [map_carried, hself] at hmake
      rw [hmake, flatten_pieces (by decide)]
    · rw [InTagOrder, ← hself, List.pairwise_map] at hsorted
      exact hsorted
  · intro horder t hperm hsorted
    rw [emitted_eq h] at hperm
    have htagged := hperm.map pieceOf
    rw [map_pieceOf] at htagged
    rw [map_carried, horder _ htagged (List.pairwise_map.mpr hsorted), flatten_pieces (by decide)]

end

/-- A payload can be had back from its frames exactly if it has no more than 2048 bytes, or the
order of its chunks makes no difference; and its frames are those of no other exactly if chunks
of eight bytes a multiple of 256 apart are the same. In the order they were sent in they always
carry it. -/
theorem can_undone_iff {emitFn : Option (List MatrixFrame → MatrixFrame → Bool)} {payload : Bytes}
    {pm : ProtocolMatrix} (h : sendCan (matrixInit emitFn) payload = (true, pm)) :
    (CanUndone pm.emitted payload ↔ payload.length ≤ 2048 ∨ Commuting (pieces 8 payload)) ∧
    (FramesDetermine pm.emitted payload ↔ SameNumberSame 8 256 (pieces 8 payload)) ∧
    FramesExact pm.emitted ∧ (pm.emitted.map canCarried).flatten = payload := by
  have hpieces := isPieces_pieces (show 0 < 8 by decide) payload
  have hfew := length_pieces_le (n := 256) (show 0 < 8 by decide) payload
  have hordered := ordered_iff hpieces (show 0 < 256 by decide)
  rw [hfew] at hordered
  refine ⟨⟨fun hundone => hordered.mp ((index_order_iff h).mp hundone.order), fun hcond => ?_⟩,
    determine_iff h, frames_exact h, ?_⟩
  · have hsame : SameNumberSame 8 256 (pieces 8 payload) :=
      sameNumberSame_of_ordered (hcond.imp_left hfew.mpr)
    exact ⟨frames_exact h, (determine_iff h).mpr hsame,
      (index_order_iff h).mpr (hordered.mpr hcond)⟩
  · rw [emitted_eq h, map_carried, map_pieceOf, content_tagged, flatten_pieces (by decide)]

theorem tenBytes_undone : ∃ pm,
    sendCan (matrixInit takesAll) [1, 2, 3, 4, 5, 6, 7, 8, 9, 10] = (true, pm) ∧
    CanUndone pm.emitted [1, 2, 3, 4, 5, 6, 7, 8, 9, 10] := by
  obtain ⟨pm, h⟩ := sendCan_takesAll [1, 2, 3, 4, 5, 6, 7, 8, 9, 10]
  exact ⟨pm, h, (can_undone_iff h).1.mpr (Or.inl (by decide))⟩

/-- 256 chunks of zeros and one of ones. -/
def longChunks : List Bytes := List.replicate 256 (List.replicate 8 0) ++ [List.replicate 8 1]

theorem isPieces_longChunks : IsPieces 8 longChunks := by
  have hlen : ∀ x ∈ longChunks, x.length = 8 := by
    intro x hx
    rcases List.mem_append.mp hx with hx | hx
    · rw [(List.mem_replicate.mp hx).2]
      rfl
    · rw [List.mem_singleton.mp hx]
      rfl
  constructor
  · exact fun k x hx _ => hlen x (List.mem_of_getElem? hx)
  · intro x hx
    rw [hlen x hx]
    decide

/-- The first chunk and the last have one number, so each can stand in the other's place. -/
theorem longChunks_not_undone : ¬ ∀ emitFn payload pm,
    sendCan (matrixInit emitFn) payload = (true, pm) → CanUndone pm.emitted payload := by
  intro hall
  obtain ⟨pm, h⟩ := sendCan_takesAll longChunks.flatten
  have hsame := (determine_iff h).mp (hall takesAll _ pm h).determine
  rw [pieces_flatten (by decide) isPieces_longChunks] at hsame
  have hfirst : longChunks[0]? = some (List.replicate 8 0) := by decide
  have hlast : longChunks[256]? = some (List.replicate 8 1) := by decide +kernel
  exact absurd (hsame 0 256 _ _ rfl hfirst hlast rfl rfl) (by decide)

end Osfx
