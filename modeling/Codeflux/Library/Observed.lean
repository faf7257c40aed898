import Codeflux.Library.Effect

/-!
# Programs that call an environment, and the trace of their calls

Each call asks the environment, which answers in any way and changes in any way. Observed calls
leave an event in a trace.
-/

namespace Codeflux.Library

/-- An environment of type `σ` and the events of the calls observed so far, of type `ι`. -/
structure Observed (σ ι : Type) where
  env : σ
  trace : List ι

variable {σ ι ε α ρ : Type}

/-- Call the environment and leave an event in the trace. -/
def observe (port : σ → ρ × σ) (event : ρ → ι) : Effect (Observed σ ι) ε ρ := fun s =>
  (.ok (port s.env).1, ⟨(port s.env).2, s.trace ++ [event (port s.env).1]⟩)

/-- Call the environment without an event. -/
def silent (port : σ → ρ × σ) : Effect (Observed σ ι) ε ρ := fun s =>
  (.ok (port s.env).1, ⟨(port s.env).2, s.trace⟩)

/-- Change the environment without an event. -/
def disturb (port : σ → σ) : Effect (Observed σ ι) ε Unit :=
  fun s => (.ok (), ⟨port s.env, s.trace⟩)

/-- The trace so far. -/
def At (trace : List ι) (s : Observed σ ι) : Prop := s.trace = trace

namespace Triple

variable {t : List ι} {port : σ → ρ × σ} {event : ρ → ι} {E : ε → Observed σ ι → Prop}

/-- What is observed is an answer of the environment. -/
theorem observe_answer : Triple (At t) (Library.observe port event)
    (fun r s => (∃ env, (port env).1 = r) ∧ At (t ++ [event r]) s) E := by
  intro s hs
  refine ⟨⟨s.env, rfl⟩, ?_⟩
  show s.trace ++ _ = _
  rw [hs]

theorem observe : Triple (At t) (Library.observe port event) (fun r => At (t ++ [event r])) E :=
  observe_answer.conseq (fun _ hs => hs) (fun _ _ hs => hs.2) fun _ _ hs => hs

theorem silent : Triple (At t) (Library.silent port) (fun _ => At t) E :=
  fun _ hs => hs

theorem disturb {port : σ → σ} : Triple (At t) (Library.disturb port) (fun _ => At t) E :=
  fun _ hs => hs

end Triple

end Codeflux.Library
