import Mathlib.Data.Nat.Notation

/-! Programs over a durable store that may fail at any operation or lose power
between two of them, and rules of pre- and postconditions for such programs. A
postcondition is stated twice: for a program that returned, and for one that was
stopped on the way. -/
namespace Interruption
open Interruption

/-- How one operation on the store ended. A failed one, or one power was lost in,
may have been applied all the same. -/
inductive Fault
  | done
  | failed (applied : Bool)
  | cut (applied : Bool)
  deriving DecidableEq

def Fault.applied : Fault → Bool
  | .done => true
  | .failed applied => applied
  | .cut applied => applied

inductive Outcome (ε α : Type)
  | returned (a : α)
  | raised (e : ε)
  | cut
  deriving DecidableEq

structure Part (σ ω : Type) where
  durable : σ
  log : List (ω × Fault)

def Prog (σ ω ε α : Type) := (ℕ → Fault) → Part σ ω → Outcome ε α × Part σ ω

section
variable {σ ω ε α β : Type}

instance : Monad (Prog σ ω ε) where
  pure a := fun _ s => (.returned a, s)
  bind m f := fun faults s =>
    match m faults s with
    | (.returned a, s') => f a faults s'
    | (.raised e, s') => (.raised e, s')
    | (.cut, s') => (.cut, s')

def read (f : σ → α) : Prog σ ω ε α := fun _ s => (.returned (f s.durable), s)

def raise (e : ε) : Prog σ ω ε α := fun _ s => (.raised e, s)

def lift (r : Except ε α) : Prog σ ω ε α := fun _ s =>
  match r with
  | .ok a => (.returned a, s)
  | .error e => (.raised e, s)

def Part.after (effect : ω → σ → σ) (s : Part σ ω) (op : ω) (fault : Fault) : Part σ ω :=
  ⟨if fault.applied then effect op s.durable else s.durable, s.log ++ [(op, fault)]⟩

lemma Part.after_applied {s : Part σ ω}
    (h : fault.applied = true) : (s.after effect op fault).durable = effect op s.durable :=
  if_pos h

lemma Part.after_unapplied {s : Part σ ω}
    (h : ¬fault.applied = true) : (s.after effect op fault).durable = s.durable :=
  if_neg h

lemma Part.after_same (g : σ → τ) (h : ∀ f, g (effect op f) = g f) {s : Part σ ω} :
    g (s.after effect op fault).durable = g s.durable := by
  by_cases hf : fault.applied
  · rw [Part.after_applied hf, h]
  · rw [Part.after_unapplied hf]

def operate (effect : ω → σ → σ) (e : ε) (op : ω) : Prog σ ω ε Unit := fun faults s =>
  let fault := faults s.log.length
  match fault with
  | .done => (.returned (), s.after effect op fault)
  | .failed _ => (.raised e, s.after effect op fault)
  | .cut _ => (.cut, s.after effect op fault)

def attempt (m : Prog σ ω ε α) : Prog σ ω ε (Except ε α) := fun faults s =>
  match m faults s with
  | (.returned a, s') => (.returned (.ok a), s')
  | (.raised e, s') => (.returned (.error e), s')
  | (.cut, s') => (.cut, s')

def each : List α → (α → Prog σ ω ε Unit) → Prog σ ω ε Unit
  | [], _ => pure ()
  | a :: as, body => do
    body a
    each as body

end

section
variable {σ ω ε α β : Type} {P : Part σ ω → Prop}

/-- From `P`, the program returns with `Q` or is stopped with `R`, however its
operations end. -/
def Triple (P : Part σ ω → Prop) (m : Prog σ ω ε α) (Q : α → Part σ ω → Prop)
    (R : Part σ ω → Prop) : Prop :=
  ∀ faults s, P s →
    match m faults s with
    | (.returned a, s') => Q a s'
    | (.raised _, s') => R s'
    | (.cut, s') => R s'

def Preserves (P : Part σ ω → Prop) (m : Prog σ ω ε α) : Prop := Triple P m (fun _ => P) P

def Stable (effect : ω → σ → σ) (kind : ω → Prop) (P : Part σ ω → Prop) : Prop :=
  ∀ s op fault, kind op → P s → P (s.after effect op fault)

namespace Triple
variable {m : Prog σ ω ε α}
variable {Q : α → Part σ ω → Prop}

lemma pure (h : ∀ s, P s → Q a s) : Triple P (Pure.pure a : Prog σ ω ε α) Q R :=
  fun _ s hs => h s hs

lemma bind (hm : Triple P m Q R)
    (hf : ∀ a, Triple (Q a) (f a) Q' R) : Triple P (m >>= f) Q' R := by
  intro faults s hs
  have h := hm faults s hs
  show match (match m faults s with
    | (.returned a, s') => f a faults s'
    | (.raised e, s') => (.raised e, s')
    | (.cut, s') => (.cut, s')) with
    | (.returned a, s') => Q' a s'
    | (.raised _, s') => R s'
    | (.cut, s') => R s'
  cases hr : m faults s with
  | mk out s' =>
    rw [hr] at h
    cases out with
    | returned a => exact hf a faults s' h
    | raised e => exact h
    | cut => exact h

lemma mono (h : Triple P m Q R) (hP : ∀ s, P' s → P s)
    (hQ : ∀ a s, Q a s → Q' a s) (hR : ∀ s, R s → R' s) : Triple P' m Q' R' := by
  intro faults s hs
  have hm := h faults s (hP s hs)
  cases hr : m faults s with
  | mk out s' =>
    rw [hr] at hm
    cases out with
    | returned a => exact hQ a s' hm
    | raised e => exact hR s' hm
    | cut => exact hR s' hm

lemma pre (h : Triple P m Q R) (hP : ∀ s, P' s → P s) :
    Triple P' m Q R := h.mono hP (fun _ _ => id) fun _ => id

lemma post (h : Triple P m Q R) (hQ : ∀ a s, Q a s → Q' a s) : Triple P m Q' R :=
  h.mono (fun _ => id) hQ fun _ => id

lemma within (h : Triple P m Q R) (hR : ∀ s, R s → R' s) : Triple P m Q R' :=
  h.mono (fun _ => id) (fun _ _ => id) hR

lemma both (h : Triple P m Q R) (h' : Triple P' m Q' R') :
    Triple (fun s => P s ∧ P' s) m (fun a s => Q a s ∧ Q' a s) fun s => R s ∧ R' s := by
  intro faults s hs
  have hm := h faults s hs.1
  have hm' := h' faults s hs.2
  cases hr : m faults s with
  | mk out s' =>
    rw [hr] at hm hm'
    cases out with
    | returned a => exact ⟨hm, hm'⟩
    | raised e => exact ⟨hm, hm'⟩
    | cut => exact ⟨hm, hm'⟩

lemma top : Triple P m (fun _ _ => True) fun _ => True := by
  intro faults s _
  cases m faults s with
  | mk out s' => cases out <;> trivial

lemma given (h : φ → Triple P m Q R) : Triple (fun s => P s ∧ φ) m Q R :=
  fun faults s hs => h hs.2 faults s hs.1

/-- What holds however a program ends holds of the store it leaves. -/
lemma run (h : Triple P m (fun _ => R) R) (faults) (hs : P s) : R (m faults s).2 := by
  have hm := h faults s hs
  cases hr : m faults s with
  | mk out s' =>
    rw [hr] at hm
    cases out <;> exact hm

lemma read (h : ∀ s, P s → Q (f s.durable) s) : Triple P (read f : Prog σ ω ε α) Q R :=
  fun _ s hs => h s hs

lemma observe {g : β → Prog σ ω ε α}
    (h : ∀ b, Triple (fun s => P s ∧ b = f s.durable) (g b) Q R) :
    Triple P (Interruption.read f >>= g) Q R :=
  bind (read fun _ hs => ⟨hs, rfl⟩) h

lemma raise (h : ∀ s, P s → R s) : Triple P (raise e : Prog σ ω ε α) Q R :=
  fun _ s hs => h s hs

lemma lift (hok : ∀ a s, r = .ok a → P s → Q a s)
    (hR : ∀ s, P s → R s) : Triple P (lift r : Prog σ ω ε α) Q R := by
  intro faults s hs
  cases r with
  | ok a => exact hok a s (Eq.refl _) hs
  | error e => exact hR s hs

lemma lift_bind {f : α → Prog σ ω ε β} {Q}
    (hok : ∀ a, r = .ok a → Triple P (f a) Q R) (hR : ∀ s, P s → R s) :
    Triple P (Interruption.lift r >>= f) Q R := by
  intro faults s hs
  cases r with
  | ok a => exact hok a (Eq.refl _) faults s hs
  | error e => exact hR s hs

lemma operate {e op Q} (hdone : ∀ s, P s → Q () (s.after effect op .done))
    (hstop : ∀ s fault, P s → fault ≠ .done → R (s.after effect op fault)) :
    Triple P (operate effect e op : Prog σ ω ε Unit) Q R := by
  intro faults s hs
  unfold Interruption.operate
  cases hf : faults s.log.length with
  | done => exact hdone s hs
  | failed applied => exact hstop s (.failed applied) hs (by simp)
  | cut applied => exact hstop s (.cut applied) hs (by simp)

lemma attempt {Q} (hm : Triple P m (fun a => Q (.ok a)) R)
    (hR : ∀ e s, R s → Q (.error e) s) : Triple P (attempt m) Q R := by
  intro faults s hs
  have h := hm faults s hs
  unfold Interruption.attempt
  cases hr : m faults s with
  | mk out s' =>
    rw [hr] at h
    cases out with
    | returned a => exact h
    | raised e => exact hR e s' h
    | cut => exact h

lemma each {I : List α → Part σ ω → Prop}
    (h : ∀ a as, Triple (I (a :: as)) (body a) (fun _ => I as) R) :
    Triple (I as) (each as body) (fun _ => I []) R := by
  induction as with
  | nil => exact pure fun _ => id
  | cons a as ih => exact bind (h a as) fun _ => ih

end Triple

namespace Preserves

lemma pure : Preserves P (Pure.pure a : Prog σ ω ε α) := Triple.pure fun _ => id

lemma raise : Preserves P (raise e : Prog σ ω ε α) :=
  Triple.raise fun _ => id

lemma read : Preserves P (read f : Prog σ ω ε α) :=
  Triple.read fun _ => id

lemma lift : Preserves P (lift r : Prog σ ω ε α) :=
  Triple.lift (fun _ _ _ => id) fun _ => id

lemma bind {f : α → Prog σ ω ε β} (hm : Preserves P m)
    (hf : ∀ a, Preserves P (f a)) : Preserves P (m >>= f) :=
  Triple.bind hm hf

lemma operate {effect op} (h : Stable effect kind P)
    (hop : kind op) : Preserves P (operate effect e op : Prog σ ω ε Unit) :=
  Triple.operate (fun s hs => h s op .done hop hs) fun s fault hs _ => h s op fault hop hs

lemma attempt (hm : Preserves P m) : Preserves P (attempt m) :=
  Triple.attempt hm fun _ _ => id

lemma each {body : α → Prog σ ω ε Unit} (h : ∀ a ∈ as, Preserves P (body a)) :
    Preserves P (each as body) := by
  induction as with
  | nil => exact pure
  | cons a as ih =>
    have htail := ih fun b hb => h b (List.mem_cons_of_mem a hb)
    exact bind (h a (.head _)) fun _ => htail

end Preserves

lemma Stable.mono (h : Stable effect kind P)
    (hk : ∀ op, kind' op → kind op) : Stable effect kind' P :=
  fun s op fault hop hs => h s op fault (hk op hop) hs

end

section
variable {σ ω ε α β : Type} {P : Part σ ω → Prop}

def Completes (P : Part σ ω → Prop) (m : Prog σ ω ε α) (Q : α → Part σ ω → Prop) : Prop :=
  ∀ s, P s → ∃ a s', m (fun _ => .done) s = (.returned a, s') ∧ Q a s'

namespace Completes
variable {Q : α → Part σ ω → Prop}

lemma pure (h : ∀ s, P s → Q a s) : Completes P (Pure.pure a : Prog σ ω ε α) Q :=
  fun s hs => ⟨a, s, rfl, h s hs⟩

lemma bind {m : Prog σ ω ε α}
    (hm : Completes P m Q) (hf : ∀ a, Completes (Q a) (f a) Q') : Completes P (m >>= f) Q' := by
  intro s hs
  obtain ⟨a, s', hrun, ha⟩ := hm s hs
  obtain ⟨b, s'', hrun', hb⟩ := hf a s' ha
  refine ⟨b, s'', ?_, hb⟩
  show (match m (fun _ => .done) s with
    | (.returned a, s') => f a (fun _ => .done) s'
    | (.raised e, s') => (.raised e, s')
    | (.cut, s') => (.cut, s')) = _
  rw [hrun]
  exact hrun'

lemma read (h : ∀ s, P s → Q (f s.durable) s) : Completes P (read f : Prog σ ω ε α) Q :=
  fun s hs => ⟨f s.durable, s, rfl, h s hs⟩

lemma lift (hr : r = .ok a)
    (h : ∀ s, P s → Q a s) : Completes P (lift r : Prog σ ω ε α) Q := by
  intro s hs
  refine ⟨a, s, ?_, h s hs⟩
  rw [hr]
  rfl

lemma operate {effect e Q} (h : ∀ s, P s → Q () (s.after effect op .done)) :
    Completes P (operate effect e op : Prog σ ω ε Unit) Q :=
  fun s hs => ⟨(), s.after effect op .done, rfl, h s hs⟩

lemma attempt {m : Prog σ ω ε α} {Q}
    (hm : Completes P m (fun a => Q (.ok a))) : Completes P (attempt m) Q := by
  intro s hs
  obtain ⟨a, s', hrun, ha⟩ := hm s hs
  refine ⟨.ok a, s', ?_, ha⟩
  unfold Interruption.attempt
  rw [hrun]

end Completes

end

end Interruption
