/-!
# Machines made of streams

A machine that answers each event, where every event belongs to a stream and the
machine keeps a cell for each stream. It is separable if what an event is answered and
what it leaves in the cell of its stream hang on that cell only, and all other cells stay
as they are.

* `trace_history`: what an invariant that relates the state to the events so far says of
  the answers of a run;
* `trace_stream`: the events of one stream are answered in a run as by a machine that has
  this stream's cell for its state;
* `trace_alone`: so they are answered as if the other events had not happened.
-/

namespace Streams

section
variable {State Event Answer Key Cell : Type} (step : State → Event → Option (State × Answer))

/-- A run, with the answer to each event. -/
def trace : State → List Event → Option (State × List (Event × Answer))
  | s, [] => some (s, [])
  | s, e :: es => do
    let (t, a) ← step s e
    let (u, log) ← trace t es
    return (u, (e, a) :: log)

theorem trace_cons {s u : State} {e : Event} {es : List Event} {log : List (Event × Answer)} :
    trace step s (e :: es) = some (u, log) ↔
      ∃ t a rest, step s e = some (t, a) ∧ trace step t es = some (u, rest) ∧
        log = (e, a) :: rest := by
  simp only [trace, Option.bind_eq_bind, Option.bind_eq_some_iff]
  constructor
  · rintro ⟨⟨t, a⟩, hstep, ⟨v, rest⟩, hrest, hlog⟩
    cases hlog
    exact ⟨t, a, rest, hstep, hrest, rfl⟩
  · rintro ⟨t, a, rest, hstep, hrest, rfl⟩
    exact ⟨(t, a), hstep, (u, rest), hrest, rfl⟩

theorem trace_events {s u : State} {es : List Event} {log : List (Event × Answer)}
    (h : trace step s es = some (u, log)) : log.map Prod.fst = es := by
  induction es generalizing s log with
  | nil =>
    cases h
    rfl
  | cons e es ih =>
    obtain ⟨t, a, rest, -, hrest, rfl⟩ := (trace_cons step).mp h
    rw [List.map_cons, ih hrest]

/-- What a run can be told to do from the events so far: `I` relates them to the state, and
each step that is answered well (`G`) keeps it and is answered as `P` says. -/
theorem trace_history {I : List Event → State → Prop} {G : Event × Answer → Prop}
    {P : List Event → Event → Answer → Prop}
    (keep : ∀ h s e t a, I h s → G (e, a) → step s e = some (t, a) → I (h ++ [e]) t ∧ P h e a)
    {h : List Event} {s u : State} {es : List Event} {log : List (Event × Answer)} (hs : I h s)
    (hgood : ∀ x ∈ log, G x) (hrun : trace step s es = some (u, log)) :
    ∀ before x after, log = before ++ x :: after → P (h ++ before.map Prod.fst) x.1 x.2 := by
  induction es generalizing h s log with
  | nil =>
    cases hrun
    intro before x after hlog
    cases before <;> cases hlog
  | cons e es ih =>
    obtain ⟨t, a, rest, hstep, hrest, rfl⟩ := (trace_cons step).mp hrun
    rw [List.forall_mem_cons] at hgood
    obtain ⟨hnext, hhere⟩ := keep h s e t a hs hgood.1 hstep
    intro before x after hlog
    cases before with
    | nil =>
      obtain ⟨rfl, -⟩ := List.cons.inj hlog
      simpa using hhere
    | cons y before =>
      obtain ⟨rfl, htail⟩ := List.cons.inj hlog
      have hlater := ih hnext hgood.2 hrest before x after htail
      simpa using hlater

/-- An event that leaves the state as it is can be repeated. -/
theorem trace_replicate {s : State} {e : Event} {a : Answer} (h : step s e = some (s, a))
    (n : Nat) : trace step s (List.replicate n e) = some (s, List.replicate n (e, a)) := by
  induction n with
  | zero => rfl
  | succ n ih =>
    rw [List.replicate_succ, List.replicate_succ]
    exact (trace_cons step).mpr ⟨s, a, _, h, ih, rfl⟩

/-- From states that satisfy `I`, an event that satisfies `G` works on the cell of its
stream, as `own` does. -/
structure Separable (own : Cell → Event → Option (Cell × Answer)) (stream : Event → Key)
    (cell : State → Key → Cell) (I : State → Prop) (G : Event → Prop) : Prop where
  agrees : ∀ s e, I s → G e →
    (step s e).map (fun r => (cell r.1 (stream e), r.2)) = own (cell s (stream e)) e
  others : ∀ s e t a, I s → G e → step s e = some (t, a) →
    ∀ k, k ≠ stream e → cell t k = cell s k
  keeps : ∀ s e t a, I s → G e → step s e = some (t, a) → I t

variable {step}
variable {own : Cell → Event → Option (Cell × Answer)} {stream : Event → Key}
  {cell : State → Key → Cell} {I : State → Prop} {G : Event → Prop}

namespace Separable

theorem own_eq_some (h : Separable step own stream cell I G) {s t : State} {e : Event}
    {a : Answer} (hs : I s) (he : G e) (hstep : step s e = some (t, a)) :
    own (cell s (stream e)) e = some (cell t (stream e), a) := by
  have hagrees := h.agrees s e hs he
  rw [hstep, Option.map_some] at hagrees
  exact hagrees.symm

theorem trace_stream [DecidableEq Key] (h : Separable step own stream cell I G) {s u : State}
    {es : List Event} {log : List (Event × Answer)} (hs : I s) (hes : ∀ e ∈ es, G e)
    (hrun : trace step s es = some (u, log)) (k : Key) :
    trace own (cell s k) (es.filter fun e => stream e = k) =
      some (cell u k, log.filter fun x => stream x.1 = k) := by
  induction es generalizing s log with
  | nil =>
    cases hrun
    rfl
  | cons e es ih =>
    obtain ⟨t, a, rest, hstep, hrest, rfl⟩ := (trace_cons step).mp hrun
    have he := hes e List.mem_cons_self
    have hnext := ih (h.keeps s e t a hs he hstep)
      (fun x hx => hes x (List.mem_cons_of_mem e hx)) hrest
    by_cases hk : stream e = k
    · subst hk
      rw [List.filter_cons_of_pos (by simp), List.filter_cons_of_pos (by simp)]
      exact (trace_cons own).mpr ⟨_, _, _, h.own_eq_some hs he hstep, hnext, rfl⟩
    · rw [h.others s e t a hs he hstep k (Ne.symm hk)] at hnext
      rw [List.filter_cons_of_neg (by simpa using hk), List.filter_cons_of_neg (by simpa using hk)]
      exact hnext

/-- Events of one stream only are answered as by the machine of that stream. -/
theorem trace_of_own (h : Separable step own stream cell I G) {k : Key} {s : State} {x : Cell}
    {es : List Event} {log : List (Event × Answer)} (hs : I s)
    (hes : ∀ e ∈ es, G e ∧ stream e = k) (hrun : trace own (cell s k) es = some (x, log)) :
    ∃ u, trace step s es = some (u, log) ∧ cell u k = x := by
  induction es generalizing s log with
  | nil =>
    cases hrun
    exact ⟨s, rfl, rfl⟩
  | cons e es ih =>
    obtain ⟨y, a, rest, hown, hrest, rfl⟩ := (trace_cons own).mp hrun
    obtain ⟨he, rfl⟩ := hes e List.mem_cons_self
    have hagrees := h.agrees s e hs he
    rw [hown] at hagrees
    obtain ⟨⟨t, b⟩, hstep, heq⟩ := Option.map_eq_some_iff.mp hagrees
    cases heq
    obtain ⟨u, hu, hx⟩ := ih (h.keeps s e t b hs he hstep)
      (fun z hz => hes z (List.mem_cons_of_mem e hz)) hrest
    exact ⟨u, (trace_cons step).mpr ⟨t, b, rest, hstep, hu, rfl⟩, hx⟩

/-- The events of one stream, run alone, are answered as they were among the others. -/
theorem trace_alone [DecidableEq Key] (h : Separable step own stream cell I G) {s u : State}
    {es : List Event} {log : List (Event × Answer)} (hs : I s) (hes : ∀ e ∈ es, G e)
    (hrun : trace step s es = some (u, log)) (k : Key) :
    ∃ v, trace step s (es.filter fun e => stream e = k) =
        some (v, log.filter fun x => stream x.1 = k) ∧ cell v k = cell u k := by
  apply h.trace_of_own hs _ (h.trace_stream hs hes hrun k)
  intro e he
  obtain ⟨hmem, hk⟩ := List.mem_filter.mp he
  exact ⟨hes e hmem, of_decide_eq_true hk⟩

end Separable

end

end Streams
