import Mathlib.Data.List.Basic

/-!
# Frames on a stream

Payloads are framed, and their frames stand on a stream one behind the other. Where no frame is
the front of another frame and what follows it, the stream determines the payloads
(`stream_inj`). Frames that are only marked at both ends, with nothing done about the marks
inside, can be cut in other places: `onlyReading_iff` says which lists of payloads are the
only ones of their stream, among those whose payloads have at most `n` members.
-/

namespace Framing

section
variable {α : Type} (frame : List α → List α)

/-- The frames of payloads, one behind the other. -/
def stream (ps : List (List α)) : List α := ps.flatMap frame

theorem stream_cons (p : List α) (ps : List (List α)) :
    stream frame (p :: ps) = frame p ++ stream frame ps := List.flatMap_cons

theorem stream_append (ps qs : List (List α)) :
    stream frame (ps ++ qs) = stream frame ps ++ stream frame qs := List.flatMap_append

variable {frame} {valid : List α → Prop}

/-- Where a frame tells its payload, whatever follows it, the stream tells them all. -/
theorem stream_inj (hne : ∀ p, frame p ≠ [])
    (hframe : ∀ p q rest rest', valid p → valid q → frame p ++ rest = frame q ++ rest' → p = q)
    {ps qs : List (List α)} (hps : ∀ p ∈ ps, valid p) (hqs : ∀ q ∈ qs, valid q)
    (h : stream frame ps = stream frame qs) : ps = qs := by
  induction ps generalizing qs with
  | nil =>
    cases qs with
    | nil => rfl
    | cons q qs =>
      rw [stream_cons] at h
      exact absurd (List.append_eq_nil_iff.mp h.symm).1 (hne q)
  | cons p ps ih =>
    cases qs with
    | nil =>
      rw [stream_cons] at h
      exact absurd (List.append_eq_nil_iff.mp h).1 (hne p)
    | cons q qs =>
      rw [stream_cons, stream_cons] at h
      have hpq := hframe p q _ _ (hps p List.mem_cons_self) (hqs q List.mem_cons_self) h
      subst hpq
      rw [ih (fun p' hp' => hps p' (List.mem_cons_of_mem _ hp'))
        (fun q' hq' => hqs q' (List.mem_cons_of_mem _ hq')) (List.append_cancel_left h)]

end

/-! ## Marked frames -/

section
variable {α : Type} (s e : α)

/-- A payload between its marks. -/
def marked (p : List α) : List α := s :: (p ++ [e])

theorem stream_marked_cons (p : List α) (ps : List (List α)) :
    stream (marked s e) (p :: ps) = s :: (p ++ e :: stream (marked s e) ps) := by
  rw [stream_cons, marked, List.cons_append, List.append_assoc, List.singleton_append]

/-- The end of a frame and the start of the next inside a payload. -/
def HasCut (p : List α) : Prop := [e, s] <:+: p

variable {s e} (hse : s ≠ e)
include hse

/-- What is behind an end mark on a stream of frames starts with a start mark. -/
theorem behind_mark {t rest : List α} {ps : List (List α)}
    (h : stream (marked s e) ps = t ++ e :: rest) :
    ∃ p ps' t', ps = p :: ps' ∧ t = s :: t' ∧
      p ++ e :: stream (marked s e) ps' = t' ++ e :: rest := by
  cases ps with
  | nil => simp [stream] at h
  | cons p ps =>
    rw [stream_marked_cons] at h
    cases t with
    | nil =>
      rw [List.nil_append, List.cons.injEq] at h
      exact absurd h.1 hse
    | cons x t =>
      rw [List.cons_append, List.cons.injEq] at h
      obtain ⟨rfl, h⟩ := h
      exact ⟨p, ps, t, rfl, rfl, h⟩

/-- A payload with no cut in it ends where it was framed, or another reading goes on behind its
end with the next one. -/
theorem cut_cases {p q : List α} {ps qs : List (List α)} (hp : ¬ HasCut s e p)
    (h : p ++ e :: stream (marked s e) ps = q ++ e :: stream (marked s e) qs) :
    (p = q ∧ stream (marked s e) ps = stream (marked s e) qs) ∨
    ∃ p₂ ps₂ t, ps = p₂ :: ps₂ ∧ q = p ++ e :: s :: t ∧
      p₂ ++ e :: stream (marked s e) ps₂ = t ++ e :: stream (marked s e) qs := by
  rcases List.append_eq_append_iff.mp h with ⟨a, rfl, ha⟩ | ⟨a, rfl, ha⟩
  · cases a with
    | nil =>
      rw [List.nil_append, List.cons.injEq] at ha
      exact Or.inl ⟨(List.append_nil p).symm, ha.2⟩
    | cons x a =>
      rw [List.cons_append, List.cons.injEq] at ha
      obtain ⟨rfl, ha⟩ := ha
      obtain ⟨p₂, ps₂, t, rfl, rfl, ht⟩ := behind_mark hse ha
      exact Or.inr ⟨p₂, ps₂, t, rfl, rfl, ht⟩
  · cases a with
    | nil =>
      rw [List.nil_append, List.cons.injEq] at ha
      exact Or.inl ⟨List.append_nil q, ha.2.symm⟩
    | cons x a =>
      rw [List.cons_append, List.cons.injEq] at ha
      obtain ⟨rfl, ha⟩ := ha
      obtain ⟨q₂, qs₂, t, rfl, rfl, ht⟩ := behind_mark hse ha
      exact absurd ⟨q, t, by simp⟩ hp

theorem cut_length {p q : List α} {ps qs : List (List α)} (hp : ¬ HasCut s e p)
    (h : p ++ e :: stream (marked s e) ps = q ++ e :: stream (marked s e) qs) :
    p.length ≤ q.length := by
  rcases cut_cases hse hp h with ⟨rfl, -⟩ | ⟨p₂, ps₂, t, -, rfl, -⟩
  · exact Nat.le_refl _
  · rw [List.length_append]
    omega

/-- Two lists of payloads with no cut in them have different streams. -/
theorem marked_inj {ps qs : List (List α)} (hps : ∀ p ∈ ps, ¬ HasCut s e p)
    (hqs : ∀ q ∈ qs, ¬ HasCut s e q)
    (h : stream (marked s e) ps = stream (marked s e) qs) : ps = qs := by
  induction ps generalizing qs with
  | nil =>
    cases qs with
    | nil => rfl
    | cons q qs => exact absurd h (List.cons_ne_nil _ _).symm
  | cons p ps ih =>
    cases qs with
    | nil => exact absurd h (List.cons_ne_nil _ _)
    | cons q qs =>
      rw [stream_marked_cons, stream_marked_cons, List.cons.injEq] at h
      rcases cut_cases hse (hps p List.mem_cons_self) h.2 with
        ⟨rfl, hrest⟩ | ⟨p₂, ps₂, t, -, rfl, -⟩
      · rw [ih (fun p' hp' => hps p' (List.mem_cons_of_mem _ hp'))
          (fun q' hq' => hqs q' (List.mem_cons_of_mem _ hq')) hrest]
      · exact absurd ⟨p, t, by simp⟩ (hqs _ List.mem_cons_self)

omit hse in
/-- Two neighbours have room in one frame, with the marks between them. -/
theorem stream_merge (p q : List α) (ps : List (List α)) :
    stream (marked s e) ((p ++ e :: s :: q) :: ps) = stream (marked s e) (p :: q :: ps) := by
  simp only [stream_marked_cons, List.append_assoc, List.cons_append]

/-- No other list of payloads of at most `n` members has the same stream. -/
def OnlyReading (s e : α) (n : Nat) (ps : List (List α)) : Prop :=
  ∀ qs, (∀ q ∈ qs, q.length ≤ n) → stream (marked s e) qs = stream (marked s e) ps → qs = ps

variable {n : Nat} {ps : List (List α)} (hps : ∀ p ∈ ps, p.length ≤ n)
include hps

omit hse in
theorem no_cut_of_only (h : OnlyReading s e n ps) : ∀ p ∈ ps, ¬ HasCut s e p := by
  rintro p hp ⟨a, b, rfl⟩
  obtain ⟨before, after, rfl⟩ := List.append_of_mem hp
  have hlen := hps _ hp
  simp only [List.length_append, List.length_cons, List.length_nil] at hlen
  have hfit : ∀ q ∈ before ++ a :: b :: after, q.length ≤ n := by
    intro q hq
    simp only [List.mem_append, List.mem_cons] at hq
    rcases hq with hq | rfl | rfl | hq
    · exact hps q (List.mem_append_left _ hq)
    · omega
    · omega
    · exact hps q (List.mem_append_right _ (List.mem_cons_of_mem _ hq))
  have hstream : stream (marked s e) (before ++ a :: b :: after) =
      stream (marked s e) (before ++ (a ++ [e, s] ++ b) :: after) := by
    rw [stream_append, stream_append, ← stream_merge, List.append_assoc, List.cons_append,
      List.cons_append, List.nil_append]
  have hlength := congrArg List.length (h _ hfit hstream)
  simp at hlength

omit hse in
theorem no_room_of_only (h : OnlyReading s e n ps) (before : List (List α)) (p q : List α)
    (after : List (List α)) (heq : ps = before ++ p :: q :: after) :
    n < p.length + q.length + 2 := by
  subst heq
  by_contra hroom
  have hfit : ∀ r ∈ before ++ (p ++ e :: s :: q) :: after, r.length ≤ n := by
    intro r hr
    simp only [List.mem_append, List.mem_cons] at hr
    rcases hr with hr | rfl | hr
    · exact hps r (List.mem_append_left _ hr)
    · simp only [List.length_append, List.length_cons]
      omega
    · exact hps r (List.mem_append_right _ (List.mem_cons_of_mem _ (List.mem_cons_of_mem _ hr)))
  have hstream : stream (marked s e) (before ++ (p ++ e :: s :: q) :: after) =
      stream (marked s e) (before ++ p :: q :: after) := by
    rw [stream_append, stream_append, stream_merge]
  have hlength := congrArg List.length (h _ hfit hstream)
  simp at hlength

omit hps in
theorem only_of_cut_room (hcut : ∀ p ∈ ps, ¬ HasCut s e p)
    (hroom : ∀ before p q after, ps = before ++ p :: q :: after → n < p.length + q.length + 2) :
    OnlyReading s e n ps := by
  intro qs hqs h
  induction ps generalizing qs with
  | nil =>
    cases qs with
    | nil => rfl
    | cons q qs => exact absurd h (List.cons_ne_nil _ _)
  | cons p ps ih =>
    cases qs with
    | nil => exact absurd h.symm (List.cons_ne_nil _ _)
    | cons q qs =>
      rw [stream_marked_cons, stream_marked_cons, List.cons.injEq] at h
      rcases cut_cases hse (hcut p List.mem_cons_self) h.2.symm with
        ⟨rfl, hrest⟩ | ⟨p₂, ps₂, t, rfl, rfl, hnext⟩
      · rw [ih (fun p' hp' => hcut p' (List.mem_cons_of_mem _ hp'))
          (fun before p₁ p₂ after heq => hroom (p :: before) p₁ p₂ after (by rw [heq]; rfl))
          qs (fun q' hq' => hqs q' (List.mem_cons_of_mem _ hq')) hrest.symm]
      · -- The other reading holds both neighbours, so they have room in one frame.
        have hp₂ := hcut p₂ (List.mem_cons_of_mem _ List.mem_cons_self)
        have hle := cut_length hse hp₂ hnext
        have hfit := hqs _ List.mem_cons_self
        have hfar := hroom [] p p₂ ps₂ rfl
        simp only [List.length_append, List.length_cons] at hfit
        omega

/-- A list of payloads is the only one of its stream exactly if none of them has a cut in it and
no two neighbours have room in one frame. -/
theorem onlyReading_iff :
    OnlyReading s e n ps ↔ (∀ p ∈ ps, ¬ HasCut s e p) ∧
      ∀ before p q after, ps = before ++ p :: q :: after → n < p.length + q.length + 2 :=
  ⟨fun h => ⟨no_cut_of_only hps h, no_room_of_only hps h⟩,
    fun h => only_of_cut_room hse h.1 h.2⟩

end

end Framing
