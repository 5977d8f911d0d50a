import OfflineProtocol.Interruption

/-! Programs that keep state of their own beside a store whose operations end as a
schedule says. The schedule knows the operation, so a class of schedules says which
operations may fail and which may be the last. -/
namespace FaultySchedule
open Interruption (Fault Outcome Part)

abbrev Schedule (ω : Type) := ω → ℕ → Fault

/-- Whether a schedule only ends operations in admitted ways. -/
def Schedule.Within {ω : Type} (schedule : Schedule ω) (allowed : ω → Fault → Prop) : Prop :=
  ∀ op n, allowed op (schedule op n)

def Task (σ ω ε α : Type) := Schedule ω → Part σ ω → Outcome ε α × Part σ ω

section
variable {σ ω ε α β : Type}

instance : Monad (Task σ ω ε) where
  pure a := fun _ s => (.returned a, s)
  bind m f := fun schedule s =>
    match m schedule s with
    | (.returned a, s') => f a schedule s'
    | (.raised e, s') => (.raised e, s')
    | (.cut, s') => (.cut, s')

def read (f : σ → α) : Task σ ω ε α := fun _ s => (.returned (f s.durable), s)

def update (f : σ → σ) : Task σ ω ε Unit := fun _ s => (.returned (), ⟨f s.durable, s.log⟩)

def raise (e : ε) : Task σ ω ε α := fun _ s => (.raised e, s)

def operate (effect : ω → σ → σ) (e : ε) (op : ω) : Task σ ω ε Unit := fun schedule s =>
  let fault := schedule op s.log.length
  match fault with
  | .done => (.returned (), s.after effect op fault)
  | .failed _ => (.raised e, s.after effect op fault)
  | .cut _ => (.cut, s.after effect op fault)

def attempt (m : Task σ ω ε α) : Task σ ω ε (Except ε α) := fun schedule s =>
  match m schedule s with
  | (.returned a, s') => (.returned (.ok a), s')
  | (.raised e, s') => (.returned (.error e), s')
  | (.cut, s') => (.cut, s')

end

section
variable {σ ω ε α β : Type}

/-- From `P`, the program returns with `Q`, raises with `E` or is cut with `K`, under
every admitted schedule. -/
def Spec (allowed : ω → Fault → Prop) (P : Part σ ω → Prop) (m : Task σ ω ε α)
    (Q : α → Part σ ω → Prop) (E : ε → Part σ ω → Prop) (K : Part σ ω → Prop) : Prop :=
  ∀ schedule : Schedule ω, schedule.Within allowed → ∀ s, P s →
    match m schedule s with
    | (.returned a, s') => Q a s'
    | (.raised e, s') => E e s'
    | (.cut, s') => K s'

abbrev Upholds (allowed : ω → Fault → Prop) (J K : Part σ ω → Prop) (m : Task σ ω ε α) : Prop :=
  Spec allowed J m (fun _ => J) (fun _ => J) K

abbrev Maintains (allowed : ω → Fault → Prop) (I : σ → Prop) (m : Task σ ω ε α) : Prop :=
  Upholds allowed (fun s => I s.durable) (fun s => I s.durable) m

namespace Spec
variable {m : Task σ ω ε α}

lemma pure (h : ∀ s, P s → Q a s) : Spec allowed P (Pure.pure a : Task σ ω ε α) Q E K :=
  fun _ _ s hs => h s hs

lemma skip : Spec allowed P (Pure.pure a : Task σ ω ε α) (fun _ => P) E K :=
  pure fun _ => id

lemma bind (hm : Spec allowed P m Q E K)
    (hf : ∀ a, Spec allowed (Q a) (f a) Q' E K) : Spec allowed P (m >>= f) Q' E K := by
  intro schedule hall s hs
  have h := hm schedule hall s hs
  show match (match m schedule s with
    | (.returned a, s') => f a schedule s'
    | (.raised e, s') => (.raised e, s')
    | (.cut, s') => (.cut, s')) with
    | (.returned a, s') => Q' a s'
    | (.raised e, s') => E e s'
    | (.cut, s') => K s'
  cases hr : m schedule s with
  | mk out s' =>
    rw [hr] at h
    cases out with
    | returned a => exact hf a schedule hall s' h
    | raised e => exact h
    | cut => exact h

lemma mono (h : Spec allowed P m Q E K) (hP : ∀ s, P' s → P s) (hQ : ∀ a s, Q a s → Q' a s)
    (hE : ∀ e s, E e s → E' e s) (hK : ∀ s, K s → K' s) : Spec allowed P' m Q' E' K' := by
  intro schedule hall s hs
  have hm := h schedule hall s (hP s hs)
  cases hr : m schedule s with
  | mk out s' =>
    rw [hr] at hm
    cases out with
    | returned a => exact hQ a s' hm
    | raised e => exact hE e s' hm
    | cut => exact hK s' hm

lemma pre (h : Spec allowed P m Q E K) (hP : ∀ s, P' s → P s) : Spec allowed P' m Q E K :=
  h.mono hP (fun _ _ => id) (fun _ _ => id) fun _ => id

lemma post (h : Spec allowed P m Q E K) (hQ : ∀ a s, Q a s → Q' a s) : Spec allowed P m Q' E K :=
  h.mono (fun _ => id) hQ (fun _ _ => id) fun _ => id

lemma conseq (h : Spec allowed P m Q E K) (hP : ∀ s, P' s → P s)
    (hQ : ∀ a s, Q a s → Q' a s) : Spec allowed P' m Q' E K :=
  (h.pre hP).post hQ

lemma raising (h : Spec allowed P m Q E K) (hE : ∀ e s, E e s → E' e s) :
    Spec allowed P m Q E' K :=
  h.mono (fun _ => id) (fun _ _ => id) hE fun _ => id

lemma and (h : Spec allowed P m Q E K) (h' : Spec allowed P' m Q' E' K') :
    Spec allowed (fun s => P s ∧ P' s) m (fun a s => Q a s ∧ Q' a s) (fun e s => E e s ∧ E' e s)
      (fun s => K s ∧ K' s) := by
  intro schedule hall s hs
  have hm := h schedule hall s hs.1
  have hm' := h' schedule hall s hs.2
  cases hr : m schedule s with
  | mk out s' =>
    rw [hr] at hm hm'
    cases out <;> exact ⟨hm, hm'⟩

lemma given (hφ : ∀ s, P s → φ) (h : φ → Spec allowed P m Q E K) : Spec allowed P m Q E K :=
  fun schedule hall s hs => h (hφ s hs) schedule hall s hs

lemma named {γ : Type} {I : γ → Part σ ω → Prop}
    (h : ∀ c, Spec allowed (I c) m Q E K) : Spec allowed (fun s => ∃ c, I c s) m Q E K := by
  rintro schedule hall s ⟨c, hc⟩
  exact h c schedule hall s hc

lemma naming {γ : Type} (f : σ → γ)
    (h : ∀ c, Spec allowed (fun s => P s ∧ f s.durable = c) m Q E K) : Spec allowed P m Q E K :=
  fun schedule hall s hs => h _ schedule hall s ⟨hs, rfl⟩

lemma read (h : ∀ s, P s → Q (f s.durable) s) :
    Spec allowed P (FaultySchedule.read f : Task σ ω ε α) Q E K :=
  fun _ _ s hs => h s hs

lemma peek (h : ∀ b, Spec allowed P (g b) Q E K) :
    Spec allowed P (FaultySchedule.read f >>= g) Q E K :=
  bind (read fun _ => id) h

lemma observe {g : β → Task σ ω ε α}
    (h : ∀ b, Spec allowed (fun s => P s ∧ f s.durable = b) (g b) Q E K) :
    Spec allowed P (FaultySchedule.read f >>= g) Q E K :=
  bind (read fun _ hs => ⟨hs, rfl⟩) h

lemma known {f : α → Task σ ω ε β} (hm : Spec allowed P m (fun b s => J s ∧ b = a) E K)
    (h : Spec allowed J (f a) Q E K) : Spec allowed P (m >>= f) Q E K := by
  refine bind hm fun b => given (φ := b = a) (fun _ hs => hs.2) fun hb => ?_
  subst hb
  exact h.pre fun _ hs => hs.1

lemma consult {g : β → Task σ ω ε α} (ha : ∀ s, P s → f s.durable = a)
    (h : Spec allowed P (g a) Q E K) : Spec allowed P (FaultySchedule.read f >>= g) Q E K :=
  known (read fun s hs => ⟨hs, ha s hs⟩) h

lemma update (h : ∀ s, P s → Q () ⟨f s.durable, s.log⟩) :
    Spec allowed P (FaultySchedule.update f : Task σ ω ε Unit) Q E K :=
  fun _ _ s hs => h s hs

lemma raise (h : ∀ s, P s → E e s) :
    Spec allowed P (FaultySchedule.raise e : Task σ ω ε α) Q E K :=
  fun _ _ s hs => h s hs

/-- One operation: done, failed or cut, each in an admitted way. -/
lemma operate (hdone : ∀ s, allowed op .done → P s → Q () (s.after effect op .done))
    (hfailed : ∀ s b, allowed op (.failed b) → P s → E e (s.after effect op (.failed b)))
    (hcut : ∀ s b, allowed op (.cut b) → P s → K (s.after effect op (.cut b))) :
    Spec allowed P (FaultySchedule.operate effect e op : Task σ ω ε Unit) Q E K := by
  intro schedule hall s hs
  have hop := hall op s.log.length
  unfold FaultySchedule.operate
  cases hf : schedule op s.log.length with
  | done => exact hdone s (hf ▸ hop) hs
  | failed b => exact hfailed s b (hf ▸ hop) hs
  | cut b => exact hcut s b (hf ▸ hop) hs

lemma attempt (hm : Spec allowed P m (fun a => Q (.ok a)) (fun e => Q (.error e)) K) :
    Spec allowed P (FaultySchedule.attempt m) Q E K := by
  intro schedule hall s hs
  have h := hm schedule hall s hs
  unfold FaultySchedule.attempt
  cases hr : m schedule s with
  | mk out s' =>
    rw [hr] at h
    cases out <;> exact h

lemma attempt_keeps (hm : Spec allowed P m (fun _ => Q) (fun _ => Q) K) :
    Spec allowed P (FaultySchedule.attempt m) (fun _ => Q) E K :=
  attempt hm

end Spec

end

end FaultySchedule
