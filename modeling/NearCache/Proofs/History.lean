import Mathlib.Data.List.Basic
import Mathlib.Data.List.Induction
import Mathlib.Data.List.Nodup
import Mathlib.Tactic.SplitIfs

/-!
Runs of a system that answers one call at a time, and their histories: every call together with the
state that met it. What a state has kept is read off the history as something that began at one step
and was not ended by any later one.
-/

namespace NearCache

namespace History

variable {σ α : Type}

/-- The state that some calls lead to, in order. -/
def run (perform : σ → α → σ) (start : σ) (calls : List α) : σ :=
  calls.foldl perform start

/-- The calls of a run, each with the state that met it. -/
def steps (perform : σ → α → σ) : σ → List α → List (σ × α)
  | _, [] => []
  | s, call :: rest => (s, call) :: steps perform (perform s call) rest

/-- Something began at a step, given all that came before it, and no later step ended it. -/
def Since (begins : List α → α → Prop) (ends : α → Prop) (history : List α) : Prop :=
  ∃ before step after, history = before ++ step :: after ∧ begins before step ∧
    ∀ later ∈ after, ¬ends later

section Runs

variable (perform : σ → α → σ) (start : σ)

theorem run_append (calls more : List α) :
    run perform start (calls ++ more) = run perform (run perform start calls) more :=
  List.foldl_append

theorem run_concat (calls : List α) (call : α) :
    run perform start (calls ++ [call]) = perform (run perform start calls) call := by
  rw [run_append]
  rfl

theorem steps_append (calls more : List α) :
    steps perform start (calls ++ more) =
      steps perform start calls ++ steps perform (run perform start calls) more := by
  induction calls generalizing start with
  | nil => rfl
  | cons first rest ih =>
      simp only [List.cons_append, steps, ih]
      rfl

theorem steps_concat (calls : List α) (call : α) :
    steps perform start (calls ++ [call]) =
      steps perform start calls ++ [(run perform start calls, call)] := by
  rw [steps_append]
  rfl

theorem steps_calls (calls : List α) : (steps perform start calls).map Prod.snd = calls := by
  induction calls generalizing start with
  | nil => rfl
  | cons first rest ih => simp only [steps, List.map_cons, ih]

variable {perform start} in
/-- A step of a run is one of its calls. -/
theorem call_mem_of_mem_steps {calls : List α} {step : σ × α}
    (h : step ∈ steps perform start calls) : step.2 ∈ calls := by
  have hm := List.mem_map_of_mem (f := Prod.snd) h
  rwa [steps_calls] at hm

end Runs

section Beginnings

variable {begins : List α → α → Prop} {ends : α → Prop}

theorem not_since_nil : ¬Since begins ends [] := by
  rintro ⟨before, step, after, hEq, -⟩
  exact List.append_ne_nil_of_right_ne_nil before (List.cons_ne_nil step after) hEq.symm

/-- What holds after one more step has begun there, or has begun before and is not ended there. -/
theorem since_concat (history : List α) (last : α) :
    Since begins ends (history ++ [last]) ↔
      begins history last ∨ (Since begins ends history ∧ ¬ends last) := by
  constructor
  · rintro ⟨before, step, after, hEq, hBegins, hAfter⟩
    rcases List.eq_nil_or_concat' after with rfl | ⟨middle, final, rfl⟩
    · obtain ⟨rfl, hLast⟩ := List.append_inj' hEq rfl
      cases hLast
      exact Or.inl hBegins
    · rw [← List.cons_append, ← List.append_assoc] at hEq
      obtain ⟨rfl, hLast⟩ := List.append_inj' hEq rfl
      cases hLast
      refine Or.inr ⟨⟨before, step, middle, rfl, hBegins, ?_⟩, ?_⟩
      · exact fun later hm => hAfter later (List.mem_append_left _ hm)
      · exact hAfter last (List.mem_append_right _ (List.mem_singleton_self last))
  · rintro (hBegins | ⟨⟨before, step, after, rfl, hBegins, hAfter⟩, hLast⟩)
    · exact ⟨history, last, [], rfl, hBegins, by simp⟩
    · refine ⟨before, step, after ++ [last], by simp, hBegins, ?_⟩
      intro later hm
      rcases List.mem_append.mp hm with hm | hm
      · exact hAfter later hm
      · rw [List.mem_singleton.mp hm]
        exact hLast

end Beginnings

section Tracking

variable {perform : σ → α → σ} {start : σ} {P : σ → Prop}
  {begins : List (σ × α) → σ × α → Prop} {ends : σ × α → Prop}

/-- If a property of states can only appear at a step that begins it and does not outlast a step that
ends it, then a state that has it owes it to such a beginning. Only the steps of the run itself
matter. -/
theorem since_of_run {calls : List α} (hStart : ¬P start)
    (hStep : ∀ before call, before ++ [call] <+: calls →
      P (perform (run perform start before) call) →
        begins (steps perform start before) (run perform start before, call) ∨
          (P (run perform start before) ∧ ¬ends (run perform start before, call)))
    (h : P (run perform start calls)) :
    Since begins ends (steps perform start calls) := by
  induction calls using List.reverseRecOn with
  | nil => exact absurd h hStart
  | append_singleton calls call ih =>
      rw [run_concat] at h
      rw [steps_concat, since_concat]
      refine (hStep calls call (List.prefix_refl _) h).imp_right fun hKept => ⟨?_, hKept.2⟩
      refine ih (fun before call' hPrefix => hStep before call' ?_) hKept.1
      exact hPrefix.trans (List.prefix_append calls [call])

/-- If moreover every step that begins the property brings it about and only steps that end it take
it away, then exactly the states with such a beginning have it. -/
theorem run_iff_since {calls : List α} (hStart : ¬P start)
    (hStep : ∀ before call, before ++ [call] <+: calls →
      (P (perform (run perform start before) call) ↔
        begins (steps perform start before) (run perform start before, call) ∨
          (P (run perform start before) ∧ ¬ends (run perform start before, call)))) :
    P (run perform start calls) ↔ Since begins ends (steps perform start calls) := by
  induction calls using List.reverseRecOn with
  | nil => exact iff_of_false hStart not_since_nil
  | append_singleton calls call ih =>
      rw [run_concat, steps_concat, since_concat, hStep calls call (List.prefix_refl _)]
      have hBefore := ih fun before call' hPrefix =>
        hStep before call' (hPrefix.trans (List.prefix_append calls [call]))
      rw [hBefore]

end Tracking

section Views

variable {τ : Type} {perform : σ → α → σ} {act : τ → α → τ} {view : σ → τ} {concerns : α → Bool}
  {start : σ} {calls : List α}

/-- A part of a system that moves by itself at the calls that concern it, and stays as it is at all
others, ends where those calls alone lead it. -/
theorem view_run (hView : ∀ s, ∀ call ∈ calls,
      view (perform s call) = if concerns call then act (view s) call else view s) :
    view (run perform start calls) = run act (view start) (calls.filter concerns) := by
  induction calls generalizing start with
  | nil => rfl
  | cons first rest ih =>
      have hFirst := hView start first List.mem_cons_self
      have hRest : view (run perform (perform start first) rest) =
          run act (view (perform start first)) (rest.filter concerns) :=
        ih fun s call hm => hView s call (List.mem_cons_of_mem _ hm)
      refine hRest.trans ?_
      rw [hFirst, List.filter_cons]
      split_ifs <;> rfl

/-- The steps that concern such a part, as it sees them, are the steps of its own run. -/
theorem view_steps (hView : ∀ s, ∀ call ∈ calls,
      view (perform s call) = if concerns call then act (view s) call else view s) :
    ((steps perform start calls).filter fun step => concerns step.2).map
        (fun step => (view step.1, step.2)) =
      steps act (view start) (calls.filter concerns) := by
  induction calls generalizing start with
  | nil => rfl
  | cons first rest ih =>
      have hFirst := hView start first List.mem_cons_self
      have hRest : ((steps perform (perform start first) rest).filter
            fun step => concerns step.2).map (fun step => (view step.1, step.2)) =
          steps act (view (perform start first)) (rest.filter concerns) :=
        ih fun s call hm => hView s call (List.mem_cons_of_mem _ hm)
      rw [hFirst] at hRest
      rw [steps, List.filter_cons, List.filter_cons]
      split_ifs with hConcerns
      · rw [if_pos hConcerns] at hRest
        rw [List.map_cons, hRest]
        rfl
      · rw [if_neg hConcerns] at hRest
        exact hRest

end Views

section Emissions

variable {ι : Type} {perform : σ → α → σ} {emits? : σ × α → Option ι} {U : σ → ι → Prop}

/-- If what a step emits was not used up before it, is used up after it and remains so, then nothing
is emitted twice. -/
theorem emissions_nodup {start : σ} (calls : List α)
    (hKeep : ∀ before call i, U (run perform start before) i →
      U (perform (run perform start before) call) i)
    (hFresh : ∀ before call i, emits? (run perform start before, call) = some i →
      ¬U (run perform start before) i ∧ U (perform (run perform start before) call) i) :
    ((steps perform start calls).filterMap emits?).Nodup := by
  -- The induction needs to know that all that was emitted is used up by now.
  suffices h : ((steps perform start calls).filterMap emits?).Nodup ∧
      ∀ i ∈ (steps perform start calls).filterMap emits?, U (run perform start calls) i from h.1
  induction calls using List.reverseRecOn with
  | nil => exact ⟨List.nodup_nil, by simp [steps]⟩
  | append_singleton calls call ih =>
      obtain ⟨hNodup, hUsed⟩ := ih
      rw [steps_concat, List.filterMap_append, run_concat]
      cases hEmits : emits? (run perform start calls, call) with
      | none =>
          simp only [List.filterMap_cons_none hEmits, List.filterMap_nil, List.append_nil]
          exact ⟨hNodup, fun i hi => hKeep calls call i (hUsed i hi)⟩
      | some new =>
          obtain ⟨hNew, hNow⟩ := hFresh calls call new hEmits
          simp only [List.filterMap_cons_some hEmits, List.filterMap_nil]
          refine ⟨?_, fun i hi => ?_⟩
          · rw [List.nodup_append]
            refine ⟨hNodup, List.nodup_singleton new, ?_⟩
            rintro i hi j hj rfl
            rw [List.mem_singleton.mp hj] at hi
            exact hNew (hUsed new hi)
          · rcases List.mem_append.mp hi with hi | hi
            · exact hKeep calls call i (hUsed i hi)
            · rw [List.mem_singleton.mp hi]
              exact hNow

end Emissions

end History

end NearCache
