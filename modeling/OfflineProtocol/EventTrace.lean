import Mathlib.Data.List.Basic

/-! Event-sourced state machines over arbitrary state and event types. A
program step is described by the list of events it emits; the machine replays
them, and a condition on the run is a condition on each event in the state it
meets. -/
namespace EventTrace
open List
variable {σ ε ω α : Type*}

structure Machine (σ ε : Type*) where
  apply : σ → ε → σ
  enabled : σ → ε → Prop

namespace Machine

def replay (M : Machine σ ε) (s : σ) (es : List ε) : σ := es.foldl M.apply s

/-- `C` holds of every event of `es`, in the state the event meets. -/
def Along (M : Machine σ ε) (C : σ → ε → Prop) : σ → List ε → Prop
  | _, [] => True
  | s, e :: es => C s e ∧ Along M C (M.apply s e) es

/-- The events `es` can occur from `s`, and lead to `s'`. -/
structure Runs (M : Machine σ ε) (s : σ) (es : List ε) (s' : σ) : Prop where
  replays : M.replay s es = s'
  enabled : M.Along M.enabled s es

variable {M : Machine σ ε} {C : σ → ε → Prop} {s : σ}
variable {e : ε} {es : List ε}

@[simp] lemma replay_nil : M.replay s [] = s := rfl

@[simp] lemma replay_cons (e es) : M.replay s (e :: es) = M.replay (M.apply s e) es := rfl

@[simp] lemma replay_append :
    M.replay s (es ++ fs) = M.replay (M.replay s es) fs := foldl_append

@[simp] lemma along_nil : M.Along C s [] := trivial

@[simp] lemma along_cons (e es) :
    M.Along C s (e :: es) ↔ C s e ∧ M.Along C (M.apply s e) es := Iff.rfl

lemma along_append (es fs) :
    M.Along C s (es ++ fs) ↔ M.Along C s es ∧ M.Along C (M.replay s es) fs := by
  induction es generalizing s with
  | nil => simp
  | cons e es ih => simp only [cons_append, along_cons, ih, replay_cons, and_assoc]

instance decidableAlong [∀ s e, Decidable (C s e)] : ∀ s es, Decidable (M.Along C s es)
  | _, [] => isTrue trivial
  | s, e :: es =>
    have := decidableAlong (M.apply s e) es
    inferInstanceAs (Decidable (C s e ∧ M.Along C (M.apply s e) es))

lemma along_mono (h : M.Along C s es) (hcd : ∀ s e, C s e → D s e) : M.Along D s es := by
  induction es generalizing s with
  | nil => trivial
  | cons e es ih => exact ⟨hcd s e h.1, ih h.2⟩

lemma along_of_forall (h : ∀ e ∈ es, ∀ s, C s e) : M.Along C s es := by
  induction es generalizing s with
  | nil => trivial
  | cons e es ih =>
    exact ⟨h e (.head _) s, ih fun e' he' => h e' (.tail _ he')⟩

lemma runs_nil : M.Runs s [] s := ⟨rfl, trivial⟩

lemma runs_single (he : M.enabled s e) : M.Runs s [e] (M.apply s e) :=
  ⟨rfl, he, trivial⟩

lemma Runs.append (h : M.Runs s es s') (h' : M.Runs s' fs s'') : M.Runs s (es ++ fs) s'' := by
  obtain ⟨rfl, he⟩ := h
  obtain ⟨rfl, he'⟩ := h'
  exact ⟨replay_append, (along_append es fs).2 ⟨he, he'⟩⟩

lemma Runs.cons (he : M.enabled s e) (h : M.Runs (M.apply s e) es s') : M.Runs s (e :: es) s' :=
  (runs_single he).append h

lemma Runs.to (h : M.Runs s es s') (hs : s' = s'') : M.Runs s es s'' := hs ▸ h

/-- The invariant rule: what every enabled event under `C` preserves holds at
the end of every trace that meets `C` throughout. -/
lemma Runs.invariant {I : σ → Prop} (h : M.Runs s es s')
    (hstep : ∀ s e, I s → M.enabled s e → C s e → I (M.apply s e))
    (hc : M.Along C s es) (hs : I s) : I s' := by
  obtain ⟨rfl, he⟩ := h
  induction es generalizing s with
  | nil => exact hs
  | cons e es ih => exact ih hc.2 (hstep s e hs he.1 hc.1) he.2

lemma Runs.split (h : M.Runs s (es ++ e :: fs) s') :
    M.Runs s es (M.replay s es) ∧ M.enabled (M.replay s es) e ∧
      M.Runs (M.apply (M.replay s es) e) fs s' := by
  obtain ⟨hr, he⟩ := h
  obtain ⟨h1, h2, h3⟩ := (along_append es (e :: fs)).1 he
  exact ⟨⟨rfl, h1⟩, h2, by rw [← hr, replay_append, replay_cons], h3⟩

end Machine

variable {step : ω → α → ω × List ε} {P : ω → Prop}

lemma concat_eq_split (h : es ++ [e] = l1 ++ a :: l2) :
    (l1 = es ∧ a = e ∧ l2 = []) ∨ ∃ l, l2 = l ++ [e] ∧ es = l1 ++ a :: l := by
  rcases eq_nil_or_concat l2 with rfl | ⟨l, b, rfl⟩
  · obtain ⟨h1, h2⟩ := append_inj' h rfl
    exact Or.inl ⟨h1.symm, (head_eq_of_cons_eq h2).symm, rfl⟩
  have h' : es ++ [e] = (l1 ++ a :: l) ++ [b] := by simpa using h
  obtain ⟨h1, h2⟩ := append_inj' h' rfl
  exact Or.inr ⟨l, by rw [head_eq_of_cons_eq h2, concat_eq_append], h1⟩

def runSteps (step : ω → α → ω × List ε) : ω → List α → ω × List ε
  | w, [] => (w, [])
  | w, a :: as => ((runSteps step (step w a).1 as).1,
      (step w a).2 ++ (runSteps step (step w a).1 as).2)

lemma runSteps_append (step : ω → α → ω × List ε) (w as bs) : runSteps step w (as ++ bs) =
      ((runSteps step (runSteps step w as).1 bs).1,
        (runSteps step w as).2 ++ (runSteps step (runSteps step w as).1 bs).2) := by
  induction as generalizing w with
  | nil => rfl
  | cons a as ih => simp only [cons_append, runSteps, ih, append_assoc]

lemma runSteps_preserves (hstep : ∀ w a, P w → P (step w a).1) (as) (hw : P w) :
    P (runSteps step w as).1 := by
  induction as generalizing w with
  | nil => exact hw
  | cons a as ih => exact ih (hstep w a hw)

lemma runSteps_crossing (hstart : ¬P w) (hend : P (runSteps step w as).1) :
    ∃ before a after, as = before ++ a :: after ∧ ¬P (runSteps step w before).1 ∧
      P (step (runSteps step w before).1 a).1 := by
  induction as generalizing w with
  | nil => exact absurd hend hstart
  | cons a as ih =>
    by_cases hfirst : P (step w a).1
    · exact ⟨[], a, as, rfl, hstart, hfirst⟩
    obtain ⟨before, b, after, rfl, hnot, hthen⟩ := ih hfirst hend
    exact ⟨a :: before, b, after, rfl, hnot, hthen⟩

def AlongSteps (step : ω → α → ω × List ε) (C : ω → α → Prop) : ω → List α → Prop
  | _, [] => True
  | w, a :: as => C w a ∧ AlongSteps step C (step w a).1 as

instance decidableAlongSteps (step : ω → α → ω × List ε) (C : ω → α → Prop)
    [∀ w a, Decidable (C w a)] : ∀ w as, Decidable (AlongSteps step C w as)
  | _, [] => isTrue trivial
  | w, a :: as =>
    have := decidableAlongSteps step C (step w a).1 as
    inferInstanceAs (Decidable (C w a ∧ AlongSteps step C (step w a).1 as))

lemma runSteps_invariant {I : ω → List ε → Prop}
    (hstep : ∀ w a past, I w past → C w a → I (step w a).1 (past ++ (step w a).2))
    (hc : AlongSteps step C w as) (hw : I w past) :
    I (runSteps step w as).1 (past ++ (runSteps step w as).2) := by
  induction as generalizing w past with
  | nil =>
    rw [runSteps, append_nil]
    exact hw
  | cons a as ih =>
    have hnext := ih hc.2 (hstep w a past hw hc.1)
    rw [append_assoc] at hnext
    exact hnext

lemma runSteps_along (hstep : ∀ w a, P w → C w a → P (step w a).1)
    (hc : AlongSteps step C w as) (hw : P w) : P (runSteps step w as).1 := by
  induction as generalizing w with
  | nil => exact hw
  | cons a as ih => exact ih hc.2 (hstep w a hw hc.1)

/-- Steps that the machine can follow one at a time, from any well-formed
program state and after any past, are followed by it along a whole run. -/
lemma runSteps_simulated {M : Machine σ ε} {abs : ω → List ε → σ}
    {wf : ω → Prop} (hstep : ∀ w a, wf w → wf (step w a).1 ∧
      ∀ past, M.Runs (abs w past) (step w a).2 (abs (step w a).1 (past ++ (step w a).2)))
    (w) (hw : wf w) (as) :
    wf (runSteps step w as).1 ∧ ∀ past, M.Runs (abs w past) (runSteps step w as).2
      (abs (runSteps step w as).1 (past ++ (runSteps step w as).2)) := by
  induction as generalizing w with
  | nil =>
    refine ⟨hw, fun past => ?_⟩
    simpa only [runSteps, append_nil] using Machine.runs_nil
  | cons a as ih =>
    obtain ⟨hw', hr⟩ := hstep w a hw
    obtain ⟨hwf, hrs⟩ := ih (step w a).1 hw'
    refine ⟨hwf, fun past => ?_⟩
    have happ := (hr past).append (hrs (past ++ (step w a).2))
    rwa [append_assoc] at happ

end EventTrace
