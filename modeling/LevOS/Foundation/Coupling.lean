import Mathlib.Logic.Basic
import Mathlib.Tactic.SplitIfs

/-!
# Coupled machines

Two machines take the same inputs, each in states of its own. If they give the same
output from related states and end up in related states again, their outputs never tell
them apart, however long they run.

## Main definitions

* `Alike`, one output and related states
* `runAll`, the outputs of a machine and the state it ends in

## Main results

* `Alike.elim`, the case analysis
* `Alike.runAll`, runs are alike
-/

namespace LevOS.Foundation

variable {σ σ' τ τ' ι α β : Type*}

/-- Two outcomes with one output and with related states. -/
structure Alike (R : σ → σ' → Prop) (a : α × σ) (a' : α × σ') : Prop where
  output : a.1 = a'.1
  state : R a.2 a'.2

/-- To show something of two outcomes that are alike, take one output and related states. -/
@[elab_as_elim]
theorem Alike.elim {R : σ → σ' → Prop} {motive : α × σ → α × σ' → Prop} {a : α × σ} {a' : α × σ'}
    (h : Alike R a a') (pair : ∀ o s s', R s s' → motive (o, s) (o, s')) : motive a a' := by
  obtain ⟨o, s⟩ := a
  obtain ⟨o', s'⟩ := a'
  obtain ⟨rfl, hstate⟩ := h
  exact pair o s s' hstate

/-- Two machines that take the same branch are alike, if they are in either. -/
theorem alike_ite {R : σ → σ' → Prop} {p : Prop} [Decidable p] {a b : α × σ} {a' b' : α × σ'}
    (hthen : p → Alike R a a') (helse : ¬ p → Alike R b b') :
    Alike R (if p then a else b) (if p then a' else b') := by
  split_ifs with hp
  · exact hthen hp
  · exact helse hp

/-- The outputs of a machine for some inputs, and the state it ends in. -/
def runAll (step : ι → σ → α × σ) : List ι → σ → List α × σ
  | [], s => ([], s)
  | i :: inputs, s =>
    let (output, s) := step i s
    let (outputs, s) := runAll step inputs s
    (output :: outputs, s)

/-- From related states, two machines whose steps are alike run alike. -/
theorem Alike.runAll {R : σ → σ' → Prop} {step : ι → σ → α × σ} {step' : ι → σ' → α × σ'}
    (hstep : ∀ i s s', R s s' → Alike R (step i s) (step' i s')) (inputs : List ι) {s : σ} {s' : σ'}
    (h : R s s') : Alike R (runAll step inputs s) (Foundation.runAll step' inputs s') := by
  induction inputs generalizing s s' with
  | nil => exact ⟨rfl, h⟩
  | cons i inputs ih =>
    obtain ⟨houtput, hstate⟩ := hstep i s s' h
    obtain ⟨houtputs, hend⟩ := ih hstate
    exact ⟨congrArg₂ List.cons houtput houtputs, hend⟩

end LevOS.Foundation
