import Mathlib.Data.List.Basic

/-!
# Accesses to buffers

A computation that reads and writes buffers and subtracts unsigned numbers. It logs the
indices it uses and the subtractions it makes, and it has no result from the first of them
that goes wrong. `Yields size x v` is the specification of such a computation: it gets
through with `v`, every index is below the size of its buffer, and nothing is subtracted from
less. There is one rule for each operation, `Yields.bind` puts them together, and
`yields_each` is the rule of a loop over the indices of its result.
-/

/-- What a computation does to the buffers `ρ`, and with unsigned numbers. -/
inductive Access.Event (ρ : Type) where
  | read (r : ρ) (i : Nat)
  | write (r : ρ) (i : Nat)
  | sub (a b : Nat)
  deriving DecidableEq, Repr

structure Access (ρ α : Type) where
  log : List (Access.Event ρ)
  result : Option α
  deriving DecidableEq, Repr

namespace Access

section
variable {ρ α β : Type}

/-- Nothing happens behind a step that went wrong. -/
protected def bind (x : Access ρ α) (f : α → Access ρ β) : Access ρ β :=
  match x.result with
  | none => ⟨x.log, none⟩
  | some v => ⟨x.log ++ (f v).log, (f v).result⟩

instance : Monad (Access ρ) where
  pure v := ⟨[], some v⟩
  bind := Access.bind

/-- `buf[i]` of the buffer `r`. -/
def readAt (r : ρ) (buf : List α) (i : Nat) : Access ρ α := ⟨[.read r i], buf[i]?⟩

/-- An assignment to the `i`-th element of the buffer `r`. -/
def writeAt (r : ρ) (i : Nat) : Access ρ Unit := ⟨[.write r i], some ()⟩

/-- `a - b` of unsigned numbers. -/
def usub (a b : Nat) : Access ρ Nat := ⟨[.sub a b], if b ≤ a then some (a - b) else none⟩

/-- A loop over the indices below `n`, and what it collects. -/
def each (f : Nat → Access ρ α) : Nat → Access ρ (List α)
  | 0 => pure []
  | n + 1 => do
    let l ← each f n
    let v ← f n
    pure (l ++ [v])

/-- `len` elements from the offset `off`. -/
def readSlice (r : ρ) (buf : List α) (off len : Nat) : Access ρ (List α) :=
  each (fun i => readAt r buf (off + i)) len

end

section
variable {ρ α β : Type} {size : ρ → Nat}

/-- Indices are below the size of their buffer, and no subtraction underflows. -/
def Event.Within (size : ρ → Nat) : Event ρ → Prop
  | .read r i => i < size r
  | .write r i => i < size r
  | .sub a b => b ≤ a

/-- The computation gets through with the result `v`, and all it does is within the buffers. -/
structure Yields (size : ρ → Nat) (x : Access ρ α) (v : α) : Prop where
  result : x.result = some v
  within : ∀ e ∈ x.log, e.Within size

theorem yields_pure (v : α) : Yields size (pure v : Access ρ α) v :=
  ⟨rfl, fun _ he => absurd he List.not_mem_nil⟩

theorem Yields.bind {x : Access ρ α} {f : α → Access ρ β} {v : α} {w : β}
    (hx : Yields size x v) (hf : Yields size (f v) w) : Yields size (x >>= f) w := by
  have hbind : x >>= f = ⟨x.log ++ (f v).log, (f v).result⟩ := by
    show x.bind f = _
    rw [Access.bind, hx.result]
  rw [hbind]
  refine ⟨hf.result, ?_⟩
  intro e he
  rcases List.mem_append.mp he with he | he
  · exact hx.within e he
  · exact hf.within e he

theorem yields_readAt {r : ρ} {buf : List α} {i : Nat} {v : α} (h : buf[i]? = some v)
    (hsize : i < size r) : Yields size (readAt r buf i) v := by
  refine ⟨h, ?_⟩
  intro e he
  rw [List.mem_singleton.mp he]
  exact hsize

theorem yields_writeAt {r : ρ} {i : Nat} (hsize : i < size r) :
    Yields size (writeAt r i) () := by
  refine ⟨rfl, ?_⟩
  intro e he
  rw [List.mem_singleton.mp he]
  exact hsize

theorem yields_usub {a b : Nat} (h : b ≤ a) : Yields size (usub a b : Access ρ Nat) (a - b) := by
  refine ⟨if_pos h, ?_⟩
  intro e he
  rw [List.mem_singleton.mp he]
  exact h

/-- After `n` rounds of a loop that yields an element in every round. -/
theorem yields_each_take {f : Nat → Access ρ α} {l : List α}
    (h : ∀ i (hi : i < l.length), Yields size (f i) l[i]) {n : Nat} (hn : n ≤ l.length) :
    Yields size (each f n) (l.take n) := by
  induction n with
  | zero => exact yields_pure []
  | succ n ih =>
    have hfront := ih (by omega)
    rw [List.take_succ_eq_append_getElem hn]
    exact hfront.bind ((h n hn).bind (yields_pure _))

/-- A loop that yields an element in every round has collected these elements. -/
theorem yields_each {f : Nat → Access ρ α} {l : List α} {n : Nat} (hn : l.length = n)
    (h : ∀ i (hi : i < l.length), Yields size (f i) l[i]) : Yields size (each f n) l := by
  have hall := yields_each_take h (Nat.le_of_eq hn.symm)
  rwa [List.take_of_length_le (Nat.le_of_eq hn)] at hall

theorem yields_readSlice {r : ρ} {buf : List α} {off len : Nat} (h : off + len ≤ buf.length)
    (hsize : buf.length ≤ size r) :
    Yields size (readSlice r buf off len) ((buf.drop off).take len) := by
  have hlen : ((buf.drop off).take len).length = len := by
    rw [List.length_take, List.length_drop]
    omega
  apply yields_each hlen
  intro i hi
  rw [hlen] at hi
  apply yields_readAt
  · rw [List.getElem_take, List.getElem_drop, List.getElem?_eq_getElem (by omega)]
  · omega

end

end Access
