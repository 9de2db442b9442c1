import Osfx.Lib.Streams

/-!
# Repeated events, and the mirror of a cell

A machine for which every event is harmless a second time can be given each event as
often as one likes (`trace_echoed`).

A machine that answers events keeps, among other things, one cell that is watched. The
events that are `mine` take the cell from one value to the next, all others leave it as
it is, so that a run of the machine is a chain of values of the cell (`watched_run`).

A second machine mirrors the first if it is given what the first has answered, in order
and each answer once or several times in a row. `mirrored` is the induction: what the
two cells have in common after each answer is kept, and each answer is understood.
-/

namespace Streams

section
variable {State Event Answer : Type} {step : State → Event → Option (State × Answer)}

theorem trace_append {s t u : State} {es es' : List Event} {log log' : List (Event × Answer)}
    (h : trace step s es = some (t, log)) (h' : trace step t es' = some (u, log')) :
    trace step s (es ++ es') = some (u, log ++ log') := by
  induction es generalizing s log with
  | nil =>
    cases h
    exact h'
  | cons e es ih =>
    obtain ⟨v, a, rest, hstep, hrest, rfl⟩ := (trace_cons step).mp h
    exact (trace_cons step).mpr ⟨v, a, _, hstep, ih hrest, rfl⟩

/-- The first answer of a run is that of its first step. -/
theorem trace_first {s u : State} {es : List Event} {x : Event × Answer}
    {log : List (Event × Answer)} (h : trace step s es = some (u, x :: log)) :
    ∃ t rest, step s x.1 = some (t, x.2) ∧ trace step t rest = some (u, log) := by
  cases es with
  | nil => cases h
  | cons e es =>
    obtain ⟨t, a, rest, hstep, hrest, hlog⟩ := (trace_cons step).mp h
    cases hlog
    exact ⟨t, es, hstep, hrest⟩

/-- Each element so many times more, right behind itself. -/
def echoed {α : Type} : List (α × Nat) → List α
  | [] => []
  | (a, n) :: as => List.replicate (n + 1) a ++ echoed as

/-- If an event changes nothing a second time, a run with repetitions ends where the run
without them does, and its answers are those of that run repeated. -/
theorem trace_echoed {I : State → Prop}
    (keeps : ∀ s e t a, I s → step s e = some (t, a) → I t)
    (again : ∀ s e t a, I s → step s e = some (t, a) → step t e = some (t, a)) {s u : State}
    {es : List (Event × Nat)} {log : List (Event × Answer)} (hs : I s)
    (hrun : trace step s (es.map Prod.fst) = some (u, log)) :
    trace step s (echoed es) = some (u, echoed (log.zip (es.map Prod.snd))) := by
  induction es generalizing s log with
  | nil =>
    cases hrun
    rfl
  | cons x es ih =>
    obtain ⟨e, n⟩ := x
    obtain ⟨t, a, rest, hstep, hrest, rfl⟩ := (trace_cons step).mp hrun
    have hmore := trace_replicate step (again s e t a hs hstep) n
    have hfirst : trace step s (List.replicate (n + 1) e) =
        some (t, List.replicate (n + 1) (e, a)) :=
      (trace_cons step).mpr ⟨t, a, _, hstep, hmore, rfl⟩
    exact trace_append hfirst (ih (keeps s e t a hs hstep) hrest)

end

section
variable {State Event Answer Cell : Type} {step : State → Event → Option (State × Answer)}

/-- A chain of values of a cell, one for each event and its answer. -/
inductive Chain (own : Cell → Event × Answer → Cell → Prop) :
    Cell → List (Event × Answer) → Cell → Prop
  | nil {x} : Chain own x [] x
  | cons {x y z a log} : own x a y → Chain own y log z → Chain own x (a :: log) z

/-- What the steps of a machine do to a watched cell. -/
structure Watched (step : State → Event → Option (State × Answer))
    (own : Cell → Event × Answer → Cell → Prop) (mine : Event → Prop)
    (cell : State → Cell → Prop) : Prop where
  ours : ∀ s x e t a, cell s x → mine e → step s e = some (t, a) → ∃ y, own x (e, a) y ∧ cell t y
  others : ∀ s x e t a, cell s x → ¬ mine e → step s e = some (t, a) → cell t x

theorem watched_run {own : Cell → Event × Answer → Cell → Prop} {mine : Event → Prop}
    [DecidablePred mine] {cell : State → Cell → Prop} (h : Watched step own mine cell) {s u : State}
    {x : Cell} {es : List Event} {log : List (Event × Answer)} (hs : cell s x)
    (hrun : trace step s es = some (u, log)) :
    ∃ y, Chain own x (log.filter fun r => mine r.1) y ∧ cell u y := by
  induction es generalizing s x log with
  | nil =>
    cases hrun
    exact ⟨x, .nil, hs⟩
  | cons e es ih =>
    obtain ⟨t, a, rest, hstep, hrest, rfl⟩ := (trace_cons step).mp hrun
    by_cases he : mine e
    · obtain ⟨y, hown, hy⟩ := h.ours s x e t a hs he hstep
      obtain ⟨z, hchain, hz⟩ := ih hy hrest
      rw [List.filter_cons_of_pos (by simpa using he)]
      exact ⟨z, .cons hown hchain, hz⟩
    · rw [List.filter_cons_of_neg (by simpa using he)]
      exact ih (h.others s x e t a hs he hstep) hrest

end

/-! ## Mirroring -/

section
variable {α β : Type}

/-- The second list goes through the first in order, and may stay at an element for several
steps; `last` is the element it is at. -/
inductive Along (ok : α → β → Prop) : Option α → List α → List β → Prop
  | done {last} : Along ok last [] []
  | next {last a b as bs} : ok a b → Along ok (some a) as bs → Along ok last (a :: as) (b :: bs)
  | again {a b as bs} : ok a b → Along ok (some a) as bs → Along ok (some a) as (b :: bs)

theorem Along.imp {ok ok' : α → β → Prop} (himp : ∀ a b, ok a b → ok' a b) {last : Option α}
    {as : List α} {bs : List β} (h : Along ok last as bs) : Along ok' last as bs := by
  induction h with
  | done => exact .done
  | next hok _ ih => exact .next (himp _ _ hok) ih
  | again hok _ ih => exact .again (himp _ _ hok) ih

end

section
variable {Event Answer Packet Result Cell Copy : Type}
  {own : Cell → Event × Answer → Cell → Prop} {copy : Copy → Packet × Result → Copy → Prop}
  {Same : Cell → Copy → Prop} {Held : Event × Answer → Cell → Prop}
  {ok good : Event × Answer → Packet × Result → Prop}

/-- A packet takes the copy along with the cell, and one that is repeated changes nothing. -/
structure Mirrors (own : Cell → Event × Answer → Cell → Prop)
    (copy : Copy → Packet × Result → Copy → Prop) (Same : Cell → Copy → Prop)
    (Held : Event × Answer → Cell → Prop) (ok good : Event × Answer → Packet × Result → Prop) :
    Prop where
  next : ∀ x a x' y r y', Same x y → own x a x' → copy y r y' → ok a r →
    Same x' y' ∧ Held a x' ∧ good a r
  again : ∀ x a y r y', Same x y → Held a x → copy y r y' → ok a r → Same x y' ∧ good a r

theorem mirrored (h : Mirrors own copy Same Held ok good) {last : Option (Event × Answer)}
    {sent : List (Event × Answer)} {received : List (Packet × Result)}
    (horder : Along ok last sent received) {x x' : Cell} {y y' : Copy} (hsame : Same x y)
    (hlast : ∀ a ∈ last, Held a x) (hsent : Chain own x sent x')
    (hreceived : Chain copy y received y') :
    Along (fun a r => ok a r ∧ good a r) last sent received := by
  induction horder generalizing x y with
  | done =>
    exact .done
  | @next last a r sent received hok _ ih =>
    obtain _ | ⟨hown, hsent⟩ := hsent
    obtain _ | ⟨hcopy, hreceived⟩ := hreceived
    obtain ⟨hnext, hheld, hgood⟩ := h.next _ _ _ _ _ _ hsame hown hcopy hok
    have hrest := ih hnext (fun b hb => Option.mem_some_iff.mp hb ▸ hheld) hsent hreceived
    exact .next ⟨hok, hgood⟩ hrest
  | @again a r sent received hok _ ih =>
    obtain _ | ⟨hcopy, hreceived⟩ := hreceived
    obtain ⟨hnext, hgood⟩ := h.again _ _ _ _ _ hsame (hlast a rfl) hcopy hok
    exact .again ⟨hok, hgood⟩ (ih hnext hlast hsent hreceived)

end

end Streams
