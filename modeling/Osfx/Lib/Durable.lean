import Osfx.Lib.Run

/-!
# Machines that are restarted

A machine loses its state at a restart, but not the log of what was observed of it. Its
state is written to a file from time to time, and a restart reads the file that was
written last.

What relates state and log is kept by the steps, and a state that is read back from its own
file has it with the same log. `durable_always` says that it then lasts through all
restarts before which nothing was logged since the file was written.
-/

namespace EventSystem

/-- A machine, its file, and the log as it was when the file was written. -/
structure Durable (State Log File : Type) where
  state : State
  log : Log
  file : File
  filed : Log

inductive DurableEvent (Event Boot : Type) where
  | step (e : Event)
  | save
  | restart (b : Boot)

section
variable {State Log File Event Boot : Type} (step : State × Log → Event → Option (State × Log))
  (save : State → File) (load : Boot → File → State)

def durableStep (w : Durable State Log File) :
    DurableEvent Event Boot → Option (Durable State Log File)
  | .step e => (step (w.state, w.log) e).map fun r => { w with state := r.1, log := r.2 }
  | .save => some { w with file := save w.state, filed := w.log }
  | .restart b => some { w with state := load b w.file }

/-- Steps meet their guard, and a restart loses nothing that was logged. -/
def Lossless (G : State × Log → Event → Prop) (w : Durable State Log File) :
    DurableEvent Event Boot → Prop
  | .step e => G (w.state, w.log) e
  | .save => True
  | .restart _ => w.filed = w.log

/-- The relation holds now, and of what a restart would find with the log on file. -/
structure HeldOnFile (I : State → Log → Prop) (w : Durable State Log File) : Prop where
  now : I w.state w.log
  onFile : ∀ b, I (load b w.file) w.filed

variable {step save load} {I : State → Log → Prop} {G : State × Log → Event → Prop}

theorem durable_keeps
    (keep : ∀ s e t, I s.1 s.2 → G s e → step s e = some t → I t.1 t.2)
    (restores : ∀ s log b, I s log → I (load b (save s)) log) (w : Durable State Log File)
    (e : DurableEvent Event Boot) (w' : Durable State Log File) (hw : HeldOnFile load I w)
    (hg : Lossless G w e) (h : durableStep step save load w e = some w') :
    HeldOnFile load I w' := by
  cases e with
  | step e =>
    obtain ⟨r, hr, rfl⟩ := Option.map_eq_some_iff.mp h
    exact ⟨keep _ e r hw.now hg hr, hw.onFile⟩
  | save =>
    cases h
    exact ⟨hw.now, fun b => restores _ _ b hw.now⟩
  | restart b =>
    cases h
    refine ⟨?_, hw.onFile⟩
    have hfound := hw.onFile b
    rw [show w.filed = w.log from hg] at hfound
    exact hfound

theorem durable_always
    (keep : ∀ s e t, I s.1 s.2 → G s e → step s e = some t → I t.1 t.2)
    (restores : ∀ s log b, I s log → I (load b (save s)) log) {w : Durable State Log File}
    {es : List (DurableEvent Event Boot)} (hw : HeldOnFile load I w)
    (hg : Each (durableStep step save load) (Lossless G) w es) :
    Always (durableStep step save load) (fun w => I w.state w.log) w es :=
  always_mono _ (fun _ h => h.now)
    (always_of_each _ (durable_keeps keep restores) hw hg)

end

end EventSystem
