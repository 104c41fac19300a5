import DependencyLint.Session
import Mathlib.Data.List.Forall2

/-!
# How queries answer

A query turns a session into an answer and a later session. The equations below run the steps of a
query one after the other.

**Specifications** (`Query.Answers`). A query is specified by its answer in every session of one
kind, and by the kind of session that it leaves behind. The answer may be a failure, and the session
after a failure is specified as well, because what was found before the failure is kept. The rules
follow the query: `pure`, sequencing after an answer or after a failure, and a query for each item
of a list. Where the answer is not the same in every session, a query still keeps an invariant
(`Query.Keeps`), and its answer may have a property in all of them (`Query.Ensures`).
-/

namespace DependencyLint

/-! ## Results -/

theorem eq_ok_of_toOption {α ε : Type} {r : Except ε α} {a : α} (h : r.toOption = some a) :
    r = .ok a := by
  cases r with
  | error e => cases h
  | ok b => cases h; rfl

/-- A computation that succeeds consists of two that do. -/
theorem bind_eq_ok {α β ε : Type} {r : Except ε α} {f : α → Except ε β} {b : β}
    (h : r >>= f = .ok b) : ∃ a, r = .ok a ∧ f a = .ok b := by
  cases r with
  | error e => cases h
  | ok a => exact ⟨a, rfl, h⟩

theorem map_eq_ok {α β ε : Type} {r : Except ε α} {f : α → β} {b : β} (h : f <$> r = .ok b) :
    ∃ a, r = .ok a ∧ f a = b := by
  cases r with
  | error e => cases h
  | ok a => exact ⟨a, rfl, Except.ok.inj h⟩

theorem mapError_eq_ok {α ε ε' : Type} {r : Except ε α} {f : ε → ε'} {a : α}
    (h : r.mapError f = .ok a) : r = .ok a := by
  cases r with
  | error e => cases h
  | ok b => exact congrArg Except.ok (Except.ok.inj h)

theorem mapM_congr_left {α β ε : Type} {f g : α → Except ε β} {l : List α}
    (h : ∀ a ∈ l, f a = g a) : l.mapM f = l.mapM g := by
  induction l with
  | nil => rfl
  | cons a l ih =>
    rw [List.mapM_cons, List.mapM_cons, h a List.mem_cons_self,
      ih fun a' ha' => h a' (List.mem_cons_of_mem a ha')]

theorem mapM_eq_ok {α β ε : Type} {f : α → Except ε β} {g : α → β} {l : List α}
    (h : ∀ a ∈ l, f a = .ok (g a)) : l.mapM f = .ok (l.map g) := by
  rw [mapM_congr_left (g := fun a => pure (g a)) h, List.mapM_pure]
  rfl

theorem mapM_cons_eq_ok {α β ε : Type} {f : α → Except ε β} {a : α} {l : List α} {found : List β}
    (h : (a :: l).mapM f = .ok found) :
    ∃ b bs, f a = .ok b ∧ l.mapM f = .ok bs ∧ found = b :: bs := by
  rw [List.mapM_cons] at h
  obtain ⟨b, ha, h⟩ := bind_eq_ok h
  obtain ⟨bs, hl, h⟩ := bind_eq_ok h
  cases h
  exact ⟨b, bs, ha, hl, rfl⟩

/-- What a list of results holds was computed from an item. -/
theorem mem_of_mapM_ok {α β ε : Type} {f : α → Except ε β} {l : List α} {found : List β}
    (h : l.mapM f = .ok found) {b : β} (hb : b ∈ found) : ∃ a ∈ l, f a = .ok b := by
  induction l generalizing found with
  | nil => cases h; cases hb
  | cons a l ih =>
    obtain ⟨first, rest, ha, hl, rfl⟩ := mapM_cons_eq_ok h
    rcases List.mem_cons.1 hb with rfl | hb
    · exact ⟨a, List.mem_cons_self, ha⟩
    · obtain ⟨a', ha', hfa'⟩ := ih hl hb
      exact ⟨a', List.mem_cons_of_mem a ha', hfa'⟩

/-- A list of results has one for each item. -/
theorem forall_of_mapM_ok {α β ε : Type} {f : α → Except ε β} {l : List α} {found : List β}
    (h : l.mapM f = .ok found) : ∀ a ∈ l, ∃ b, f a = .ok b := by
  induction l generalizing found with
  | nil => simp
  | cons a l ih =>
    obtain ⟨first, rest, ha, hl, rfl⟩ := mapM_cons_eq_ok h
    exact List.forall_mem_cons.2 ⟨⟨first, ha⟩, ih hl⟩

/-- The result of an item is in the list of results. -/
theorem mem_mapM_ok {α β ε : Type} {f : α → Except ε β} {l : List α} {found : List β}
    (h : l.mapM f = .ok found) {a : α} (ha : a ∈ l) {b : β} (hb : f a = .ok b) : b ∈ found := by
  induction l generalizing found with
  | nil => cases ha
  | cons a' l ih =>
    obtain ⟨first, rest, hfirst, hl, rfl⟩ := mapM_cons_eq_ok h
    rcases List.mem_cons.1 ha with rfl | ha
    · cases hfirst.symm.trans hb
      exact List.mem_cons_self
    · exact List.mem_cons_of_mem first (ih hl ha)

/-- A list of results can be had if one can be had for each item. -/
theorem exists_mapM_ok {α β ε : Type} {f : α → Except ε β} {l : List α}
    (h : ∀ a ∈ l, ∃ b, f a = .ok b) : ∃ found, l.mapM f = .ok found := by
  induction l with
  | nil => exact ⟨[], rfl⟩
  | cons a l ih =>
    obtain ⟨b, hb⟩ := h a List.mem_cons_self
    obtain ⟨bs, hbs⟩ := ih fun a' ha' => h a' (List.mem_cons_of_mem a ha')
    refine ⟨b :: bs, ?_⟩
    rw [List.mapM_cons, hb, hbs]
    rfl

/-! ## Related lists -/

theorem map_eq_of_forall₂ {α β γ : Type} {R : α → β → Prop} {f : α → γ} {g : β → γ} {l : List α}
    {l' : List β} (h : List.Forall₂ R l l') (hfg : ∀ a b, R a b → g b = f a) :
    l'.map g = l.map f := by
  induction h with
  | nil => rfl
  | cons hab _ ih => rw [List.map_cons, List.map_cons, hfg _ _ hab, ih]

/-- Each item of one list has its partner in the other. -/
theorem exists_of_forall₂ {α β : Type} {R : α → β → Prop} {l : List α} {l' : List β}
    (h : List.Forall₂ R l l') {a : α} (ha : a ∈ l) : ∃ b ∈ l', R a b := by
  induction h with
  | nil => cases ha
  | cons hab _ ih =>
    rcases List.mem_cons.1 ha with rfl | ha
    · exact ⟨_, List.mem_cons_self, hab⟩
    · obtain ⟨b, hb, hr⟩ := ih ha
      exact ⟨b, List.mem_cons_of_mem _ hb, hr⟩

namespace Query

variable {α β : Type} {project : Project} {s : Session}

/-! ## Running the steps of a query -/

@[simp] theorem answer_pure (a : α) : (pure a : Query α).answer project s = (.ok a, s) := rfl

@[simp] theorem answer_get : (get : Query Session).answer project s = (.ok s, s) := rfl

@[simp] theorem answer_read : (read : Query Project).answer project s = (.ok project, s) := rfl

@[simp] theorem answer_modify (f : Session → Session) :
    (modify f : Query Unit).answer project s = (.ok (), f s) := rfl

@[simp] theorem answer_ofExcept (r : Except Failure α) :
    (ofExcept r).answer project s = (r, s) := by
  cases r <;> rfl

@[simp] theorem answer_bind (q : Query α) (f : α → Query β) :
    (q >>= f).answer project s =
      match q.answer project s with
      | (.ok a, s') => (f a).answer project s'
      | (.error e, s') => (.error e, s') := by
  simp only [answer, ReaderT.run_bind, ExceptT.run_bind, StateT.run_bind]
  rcases StateT.run (ExceptT.run (ReaderT.run q project)) s with ⟨r | r, s'⟩ <;> rfl

/-- A run that succeeds consists of two that do. -/
theorem answer_bind_eq_ok {q : Query α} {f : α → Query β} {b : β} {s' : Session}
    (h : (q >>= f).answer project s = (.ok b, s')) :
    ∃ a s₁, q.answer project s = (.ok a, s₁) ∧ (f a).answer project s₁ = (.ok b, s') := by
  rw [answer_bind] at h
  rcases hq : q.answer project s with ⟨e | a, s₁⟩ <;> rw [hq] at h
  · simp at h
  · exact ⟨a, s₁, rfl, h⟩

/-! ## Specifications -/

/-- In every session with `before`, the query answers `result`, and the session afterwards has
`after`. -/
def Answers (project : Project) (before : Session → Prop) (q : Query α) (result : Except Failure α)
    (after : Session → Prop) : Prop :=
  ∀ s, before s → (q.answer project s).1 = result ∧ after (q.answer project s).2

namespace Answers

variable {B M A I : Session → Prop} {q : Query α} {f : α → Query β}

theorem answer_eq {r : Except Failure α} (h : Answers project B q r A) (hs : B s) :
    ∃ s', q.answer project s = (r, s') ∧ A s' :=
  ⟨_, Prod.ext (h s hs).1 rfl, (h s hs).2⟩

theorem pure (a : α) : Answers project I (Pure.pure a) (.ok a) I := fun _ hs => ⟨rfl, hs⟩

theorem read : Answers project I (MonadReader.read : Query Project) (.ok project) I :=
  fun _ hs => ⟨rfl, hs⟩

/-- Sequencing after an answer. -/
theorem bind {a : α} {r : Except Failure β} (h : Answers project B q (.ok a) M)
    (hf : Answers project M (f a) r A) : Answers project B (q >>= f) r A := by
  intro s hs
  obtain ⟨s', hq, hs'⟩ := h.answer_eq hs
  rw [answer_bind, hq]
  exact hf s' hs'

/-- Nothing runs after a failure. -/
theorem bind_error {e : Failure} (h : Answers project B q (.error e) A) :
    Answers project B (q >>= f) (.error e) A := by
  intro s hs
  obtain ⟨s', hq, hs'⟩ := h.answer_eq hs
  rw [answer_bind, hq]
  exact ⟨rfl, hs'⟩

/-- Sequencing under an invariant, after an answer or a failure. -/
theorem bind_inv {r : Except Failure α} {value : α → Except Failure β} (h : Answers project I q r I)
    (hf : ∀ a, Answers project I (f a) (value a) I) : Answers project I (q >>= f) (r >>= value) I := by
  cases r with
  | error e => exact h.bind_error
  | ok a => exact h.bind (hf a)

/-- A query for each item of a list, under an invariant. -/
theorem mapM_inv {value : α → Except Failure β} {l : List α}
    (h : ∀ a ∈ l, Answers project I (f a) (value a) I) :
    Answers project I (l.mapM f) (l.mapM value) I := by
  induction l with
  | nil => exact pure []
  | cons a l ih =>
    rw [List.mapM_cons, List.mapM_cons]
    have hrest := ih fun a' ha' => h a' (List.mem_cons_of_mem a ha')
    exact (h a List.mem_cons_self).bind_inv fun b => hrest.bind_inv fun bs => pure (b :: bs)

theorem mapM {g : α → β} {l : List α} (h : ∀ a ∈ l, Answers project I (f a) (.ok (g a)) I) :
    Answers project I (l.mapM f) (.ok (l.map g)) I := by
  have hall := mapM_inv h
  rwa [mapM_eq_ok fun a _ => rfl] at hall

theorem mono {B' A' : Session → Prop} {r : Except Failure α} (h : Answers project B q r A)
    (hB : ∀ s, B' s → B s) (hA : ∀ s, A s → A' s) : Answers project B' q r A' :=
  fun s hs => ⟨(h s (hB s hs)).1, hA _ (h s (hB s hs)).2⟩

end Answers

/-! ## Invariants alone -/

/-- The query keeps the invariant, whatever it answers. -/
def Keeps (project : Project) (I : Session → Prop) (q : Query α) : Prop :=
  ∀ s, I s → I (q.answer project s).2

variable {I : Session → Prop} {q : Query α} {f : α → Query β}

theorem Answers.keeps {r : Except Failure α} (h : Answers project I q r I) : Keeps project I q :=
  fun s hs => (h s hs).2

/-! ## Invariants and properties of answers -/

variable {P : α → Prop} {Q : β → Prop}

/-- The query keeps the invariant, and what it answers, if it does, has the property. -/
def Ensures (project : Project) (I : Session → Prop) (q : Query α) (P : α → Prop) : Prop :=
  ∀ s, I s → I (q.answer project s).2 ∧ ∀ a, (q.answer project s).1 = .ok a → P a

theorem Answers.ensures {r : Except Failure α} (h : Answers project I q r I) :
    Ensures project I q fun a => r = .ok a := by
  intro s hs
  refine ⟨(h s hs).2, ?_⟩
  intro a ha
  rw [← (h s hs).1, ha]

namespace Ensures

theorem keeps (h : Ensures project I q P) : Keeps project I q := fun s hs => (h s hs).1

theorem pure {a : α} (h : P a) : Ensures project I (Pure.pure a) P := by
  intro s hs
  refine ⟨hs, ?_⟩
  intro b hb
  cases hb
  exact h

theorem bind (h : Ensures project I q P) (hf : ∀ a, P a → Ensures project I (f a) Q) :
    Ensures project I (q >>= f) Q := by
  intro s hs
  obtain ⟨hkept, hanswer⟩ := h s hs
  rw [answer_bind]
  rcases hq : q.answer project s with ⟨e | a, s'⟩ <;> rw [hq] at hkept hanswer
  · exact ⟨hkept, fun b hb => by cases hb⟩
  · exact hf a (hanswer a rfl) s' hkept

theorem mono {P' : α → Prop} (h : Ensures project I q P) (hP : ∀ a, P a → P' a) :
    Ensures project I q P' :=
  fun s hs => ⟨(h s hs).1, fun a ha => hP a ((h s hs).2 a ha)⟩

/-- A query for each item of a list relates the items to their answers. -/
theorem mapM {R : α → β → Prop} {l : List α} (h : ∀ a ∈ l, Ensures project I (f a) (R a)) :
    Ensures project I (l.mapM f) (List.Forall₂ R l) := by
  induction l with
  | nil => exact pure .nil
  | cons a l ih =>
    rw [List.mapM_cons]
    have hrest := ih fun a' ha' => h a' (List.mem_cons_of_mem a ha')
    exact (h a List.mem_cons_self).bind fun b hb => hrest.bind fun bs hbs => pure (.cons hb hbs)

end Ensures

end Query

end DependencyLint
