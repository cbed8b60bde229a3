import Mathlib.Data.List.Forall2
import Questionnaire.Flow

/-!
# Laws of work on one session

What work leads to, seen through the session alone: the generator and the log go along, but no
statement here depends on the log.

`Flow.Ensures P f Q` says what is true of the result and the session after work that has a result;
it says nothing about work that fails, after which nothing is stored. `Flow.Yields P f Q` says that
the work has a result as well. `Flow.Leaves P f E` says what is true of the session even where work
fails, for those who go on with it, and `Flow.FailsOnly P f E` what the fault is. `Flow.Reads f r`
is for work that leaves the session as it is.
-/

namespace Questionnaire.Flow

variable {α β : Type}

/-! ## One step at a time -/

theorem perform_bind (f : Flow α) (k : α → Flow β) (d : Desk) :
    (f >>= k).perform d = match f.perform d with
      | (.ok a, d') => (k a).perform d'
      | (.error e, d') => (.error e, d') := by
  show ExceptT.bindCont k (f.perform d).1 (f.perform d).2 = _
  rcases f.perform d with ⟨_ | a, d'⟩ <;> rfl

@[simp] theorem perform_pure (a : α) (d : Desk) : (pure a : Flow α).perform d = (.ok a, d) := rfl

@[simp] theorem perform_session (d : Desk) : Flow.session.perform d = (.ok d.session, d) := rfl

@[simp] theorem perform_logAll (es : List Event) (d : Desk) :
    (logAll es).perform d = (.ok (), { d with events := d.events ++ es }) := rfl

@[simp] theorem perform_drawn (f : Generator → α × Generator) (d : Desk) :
    (drawn f).perform d = (.ok (f d.generator).1, { d with generator := (f d.generator).2 }) := rfl

@[simp] theorem perform_ofResult (r : Except Fault α) (d : Desk) :
    (ofResult r).perform d = (r, d) := by
  cases r <;> rfl

/-- Work in sequence has a result if both parts have one. -/
theorem perform_bind_eq_ok {f : Flow α} {k : α → Flow β} {d d' : Desk} {b : β}
    (h : (f >>= k).perform d = (.ok b, d')) :
    ∃ a d₁, f.perform d = (.ok a, d₁) ∧ (k a).perform d₁ = (.ok b, d') := by
  rw [perform_bind] at h
  rcases hf : f.perform d with ⟨_ | a, d₁⟩ <;> rw [hf] at h
  · cases h
  · exact ⟨a, d₁, rfl, h⟩

/-! ## What work ensures -/

/-- Work that leads from sessions with one property to results and sessions with another, if it
leads to a result at all. -/
def Ensures (P : Session → Prop) (f : Flow α) (Q : α → Session → Prop) : Prop :=
  ∀ d a d', P d.session → f.perform d = (.ok a, d') → Q a d'.session

/-- Work that keeps a property of sessions. -/
def Keeps (P : Session → Prop) (f : Flow α) : Prop := Ensures P f fun _ => P

variable {P P' : Session → Prop} {Q Q' : α → Session → Prop} {R : β → Session → Prop}
  {f : Flow α} {k : α → Flow β}

namespace Ensures

theorem bind (hf : Ensures P f Q) (hk : ∀ a, Ensures (Q a) (k a) R) : Ensures P (f >>= k) R := by
  intro d b d' hP h
  obtain ⟨a, d₁, h₁, h₂⟩ := perform_bind_eq_ok h
  exact hk a d₁ b d' (hf d a d₁ hP h₁) h₂

theorem mono (h : Ensures P f Q) (hP : ∀ s, P' s → P s) (hQ : ∀ a s, Q a s → Q' a s) :
    Ensures P' f Q' := fun d a d' hp hd => hQ _ _ (h d a d' (hP _ hp) hd)

/-- Work on one session that has the property. -/
theorem startingAt (h : Ensures P f Q) {s : Session} (hs : P s) : Ensures (· = s) f Q :=
  h.mono (fun _ ht => ht.symm ▸ hs) fun _ _ hq => hq

theorem and (h : Ensures P f Q) (h' : Ensures P f Q') : Ensures P f fun a s => Q a s ∧ Q' a s :=
  fun d a d' hP hd => ⟨h d a d' hP hd, h' d a d' hP hd⟩

/-- A fact that the property of the session implies may be used. -/
theorem given {p : Prop} (h : ∀ s, P s → p) (hf : p → Ensures P f Q) : Ensures P f Q :=
  fun d a d' hP hd => hf (h _ hP) d a d' hP hd

theorem pure {a : α} (h : ∀ s, P s → Q a s) : Ensures P (pure a) Q := by
  intro d b d' hP hd
  cases hd
  exact h _ hP

theorem throw {e : Fault} : Ensures P (throw e : Flow α) Q := by
  intro d a d' _ hd
  cases hd

theorem session : Ensures P Flow.session fun s t => P t ∧ s = t := by
  intro d s d' hP hd
  cases hd
  exact ⟨hP, rfl⟩

theorem update {g : Session → Session} {Q : Unit → Session → Prop} (h : ∀ s, P s → Q () (g s)) :
    Ensures P (update g) Q := by
  intro d u d' hP hd
  cases hd
  exact h _ hP

theorem ofResult {r : Except Fault α} : Ensures P (ofResult r) fun a s => P s ∧ r = .ok a := by
  intro d a d' hP hd
  rw [perform_ofResult] at hd
  cases hd
  exact ⟨hP, rfl⟩

/-- Work goes on with a result that is known. -/
theorem bind_ofOk {r : Except Fault α} {a : α} (h : r = .ok a) (hk : Ensures P (k a) R) :
    Ensures P (Flow.ofResult r >>= k) R := by
  subst h
  intro d b d' hP hd
  exact hk d b d' hP (by rwa [perform_bind, perform_ofResult] at hd)

theorem drawn {g : Generator → α × Generator} :
    Ensures P (drawn g) fun a s => P s ∧ ∃ x, a = (g x).1 := by
  intro d a d' hP hd
  cases hd
  exact ⟨hP, d.generator, rfl⟩

/-- Where something is kept under ids, none of them is a list or a mapping. -/
theorem demandKeys {ids : List Id} :
    Ensures P (Flow.demandKeys ids) fun _ s => P s ∧ ∀ id ∈ ids, id.isCompound = false :=
  ofResult.mono (fun _ h => h) fun _ _ h => ⟨h.1, demandKeys_eq_ok_iff.1 h.2⟩

/-- Two ways to go on, of which a truth value chooses one. -/
theorem ite {c : Bool} {g : Flow α} (hf : c = true → Ensures P f Q)
    (hg : c = false → Ensures P g Q) : Ensures P (if c then f else g) Q := by
  cases c with
  | true => exact hf rfl
  | false => exact hg rfl

/-- What work on the elements of a list ensures is true of the results one by one, if each work
keeps what the next one starts from. -/
theorem mapM_forall₂ {g : β → Flow α} {R : β → α → Prop} : ∀ {l : List β},
    (∀ b ∈ l, Ensures P (g b) fun a s => P s ∧ R b a) →
      Ensures P (l.mapM g) fun as s => P s ∧ List.Forall₂ R l as
  | [], _ => pure fun _ h => ⟨h, .nil⟩
  | b :: r, h => by
    rw [List.mapM_cons]
    refine bind (h b (.head _)) fun a => given (fun _ ha => ha.2) fun ha => ?_
    have hr : Ensures (fun s => P s ∧ R b a) (r.mapM g) fun as s => P s ∧ List.Forall₂ R r as :=
      (mapM_forall₂ fun b hb => h b (.tail _ hb)).mono (fun _ h => h.1) fun _ _ h => h
    exact bind hr fun as => pure fun _ has => ⟨has.1, .cons ha has.2⟩

/-- What work on the elements of a list ensures is true of each result for one of them. -/
theorem mapM {g : β → Flow α} {R : β → α → Prop} {l : List β}
    (h : ∀ b ∈ l, Ensures (fun _ => True) (g b) fun a _ => R b a) :
    Ensures (fun _ => True) (l.mapM g) fun as _ => ∀ a ∈ as, ∃ b ∈ l, R b a := by
  have hall := mapM_forall₂ fun b hb => (h b hb).mono (fun _ h => h) fun _ _ h => ⟨trivial, h⟩
  refine hall.mono (fun _ h => h) fun as _ has a ha => ?_
  obtain ⟨i, hi, rfl⟩ := List.getElem_of_mem ha
  have hlt : i < l.length := by rw [has.2.length_eq]; exact hi
  exact ⟨l[i], List.getElem_mem hlt, has.2.get hlt hi⟩

end Ensures

namespace Keeps

theorem bind (hf : Keeps P f) (hk : ∀ a, Keeps P (k a)) : Keeps P (f >>= k) := Ensures.bind hf hk

theorem pure {a : α} : Keeps P (pure a) := Ensures.pure fun _ h => h

theorem throw {e : Fault} : Keeps P (throw e : Flow α) := Ensures.throw

theorem session : Keeps P Flow.session := Ensures.session.mono (fun _ h => h) fun _ _ h => h.1

theorem log {e : Event} : Keeps P (log e) := by
  intro d u d' hP hd
  cases hd
  exact hP

theorem logAll {es : List Event} : Keeps P (logAll es) := by
  intro d u d' hP hd
  cases hd
  exact hP

theorem ofResult {r : Except Fault α} : Keeps P (ofResult r) :=
  Ensures.ofResult.mono (fun _ h => h) fun _ _ h => h.1

theorem drawn {g : Generator → α × Generator} : Keeps P (drawn g) :=
  Ensures.drawn.mono (fun _ h => h) fun _ _ h => h.1

theorem update {g : Session → Session} (h : ∀ s, P s → P (g s)) : Keeps P (update g) :=
  Ensures.update h

theorem demandComparable {l : List Value} : Keeps P (Flow.demandComparable l) := ofResult

theorem demandKeys {ids : List Id} : Keeps P (Flow.demandKeys ids) := ofResult

theorem ite {c : Bool} {g : Flow α} (hf : Keeps P f) (hg : Keeps P g) :
    Keeps P (if c then f else g) := Ensures.ite (fun _ => hf) fun _ => hg

theorem mapM {g : β → Flow α} : ∀ {l : List β}, (∀ b ∈ l, Keeps P (g b)) → Keeps P (l.mapM g)
  | [], _ => pure
  | b :: r, h => by
    rw [List.mapM_cons]
    exact (h b (.head _)).bind fun _ =>
      (mapM fun b hb => h b (.tail _ hb)).bind fun _ => pure

end Keeps

/-! ## Work that only reads -/

/-- Work that leaves the session as it is and whose result depends on nothing else. -/
def Reads (f : Flow α) (r : Session → Except Fault α) : Prop :=
  ∀ d, (f.perform d).1 = r d.session ∧ (f.perform d).2.session = d.session

namespace Reads

variable {r : Session → Except Fault α} {q : α → Session → Except Fault β}

theorem bind (hf : f.Reads r) (hk : ∀ a, (k a).Reads (q a)) :
    (f >>= k).Reads fun s => (r s).bind fun a => q a s := by
  intro d
  obtain ⟨h₁, h₂⟩ := hf d
  rw [perform_bind]
  dsimp only
  rw [← h₁, ← h₂]
  rcases f.perform d with ⟨e | a, d'⟩
  · exact ⟨rfl, rfl⟩
  · exact hk a d'

theorem congr {r' : Session → Except Fault α} (h : f.Reads r) (hr : ∀ s, r s = r' s) : f.Reads r' :=
  fun d => ⟨(h d).1.trans (hr _), (h d).2⟩

theorem pure (a : α) : (pure a : Flow α).Reads fun _ => .ok a := fun _ => ⟨rfl, rfl⟩

theorem session : Flow.session.Reads .ok := fun _ => ⟨rfl, rfl⟩

theorem logAll (es : List Event) : (logAll es).Reads fun _ => .ok () := fun _ => ⟨rfl, rfl⟩

theorem log (e : Event) : (log e).Reads fun _ => .ok () := fun _ => ⟨rfl, rfl⟩

theorem ofResult (a : Except Fault α) : (ofResult a).Reads fun _ => a := by
  intro d
  rw [perform_ofResult]
  exact ⟨rfl, rfl⟩

/-- Two ways to go on, of which a truth value chooses one. -/
theorem ite {c : Bool} {g : Flow α} {r' : Session → Except Fault α} (hf : f.Reads r)
    (hg : g.Reads r') : (if c then f else g).Reads fun s => if c then r s else r' s := by
  cases c with
  | true => exact hf
  | false => exact hg

end Reads

theorem Ensures.of_reads {r : Session → Except Fault α} (h : f.Reads r) :
    Ensures P f fun a s => P s ∧ r s = .ok a := by
  intro d a d' hP hd
  obtain ⟨hresult, hsession⟩ := h d
  rw [hd] at hresult hsession
  rw [hsession]
  exact ⟨hP, hresult.symm⟩

/-! ## What work leaves behind -/

/-- Work that leaves a session with a property behind, whether it has a result or fails. -/
def Leaves (P : Session → Prop) (f : Flow α) (E : Session → Prop) : Prop :=
  ∀ d, P d.session → E (f.perform d).2.session

/-- Work that keeps a property of sessions even where it fails. -/
def Preserves (P : Session → Prop) (f : Flow α) : Prop := Leaves P f P

namespace Leaves

variable {E E' : Session → Prop}

theorem ensures (h : Leaves P f E) : Ensures P f fun _ => E := by
  intro d a d' hP hd
  have hE := h d hP
  rwa [hd] at hE

theorem mono (h : Leaves P f E) (hP : ∀ s, P' s → P s) (hE : ∀ s, E s → E' s) : Leaves P' f E' :=
  fun d hp => hE _ (h d (hP _ hp))

/-- A fact that the property of the session implies may be used. -/
theorem given {p : Prop} (h : ∀ s, P s → p) (hf : p → Leaves P f E) : Leaves P f E :=
  fun d hP => hf (h _ hP) d hP

/-- Work in sequence leaves what both parts leave, the second one with what the first ensures. -/
theorem bind (hf : Leaves P f E) (hQ : Ensures P f Q) (hk : ∀ a, Leaves (Q a) (k a) E) :
    Leaves P (f >>= k) E := by
  intro d hP
  have hE := hf d hP
  rw [perform_bind]
  rcases hd : f.perform d with ⟨e | a, d'⟩
  · rwa [hd] at hE
  · exact hk a d' (hQ d a d' hP hd)

/-- Work goes on from what the first part preserves. -/
theorem bind_preserves (hf : Preserves P f) (hE : ∀ s, P s → E s) (hk : ∀ a, Leaves P (k a) E) :
    Leaves P (f >>= k) E :=
  bind (mono hf (fun _ h => h) hE) hf.ensures hk

/-- Work goes on with what was read. -/
theorem bind_reads {r : Session → Except Fault α} (hf : f.Reads r) (hE : ∀ s, P s → E s)
    (hk : ∀ a, Leaves (fun s => P s ∧ r s = .ok a) (k a) E) : Leaves P (f >>= k) E := by
  refine bind (fun d hP => ?_) (Ensures.of_reads hf) hk
  rw [(hf d).2]
  exact hE _ hP

/-- Work goes on with a result that is known. -/
theorem bind_ofOk {r : Except Fault α} {a : α} (h : r = .ok a) (hk : Leaves P (k a) E) :
    Leaves P (Flow.ofResult r >>= k) E := by
  subst h
  intro d hP
  rw [perform_bind, perform_ofResult]
  exact hk d hP

/-- Work goes on with a changed session. -/
theorem bind_update {M : Session → Prop} {g : Session → Session} {k : Unit → Flow β}
    (hg : ∀ s, P s → M (g s)) (hk : Leaves M (k ()) E) : Leaves P (Flow.update g >>= k) E :=
  fun _ hP => hk _ (hg _ hP)

theorem pure {a : α} (h : ∀ s, P s → E s) : Leaves P (pure a : Flow α) E := fun _ hP => h _ hP

theorem throw {e : Fault} (h : ∀ s, P s → E s) : Leaves P (throw e : Flow α) E := fun _ hP => h _ hP

/-- Two ways to go on, of which a truth value chooses one. -/
theorem ite {c : Bool} {g : Flow α} (hf : c = true → Leaves P f E) (hg : c = false → Leaves P g E) :
    Leaves P (if c then f else g) E := by
  cases c with
  | true => exact hf rfl
  | false => exact hg rfl

end Leaves

namespace Preserves

theorem keeps (h : Preserves P f) : Keeps P f := Leaves.ensures h

theorem bind (hf : Preserves P f) (hk : ∀ a, Preserves P (k a)) : Preserves P (f >>= k) :=
  Leaves.bind hf hf.keeps hk

theorem of_reads {r : Session → Except Fault α} (h : f.Reads r) : Preserves P f := by
  intro d hP
  rw [(h d).2]
  exact hP

theorem pure {a : α} : Preserves P (pure a : Flow α) := fun _ h => h

theorem throw {e : Fault} : Preserves P (throw e : Flow α) := fun _ h => h

theorem session : Preserves P Flow.session := fun _ h => h

theorem log {e : Event} : Preserves P (log e) := fun _ h => h

theorem logAll {es : List Event} : Preserves P (logAll es) := fun _ h => h

theorem drawn {g : Generator → α × Generator} : Preserves P (drawn g) := fun _ h => h

theorem ofResult {r : Except Fault α} : Preserves P (ofResult r) := of_reads (.ofResult r)

theorem update {g : Session → Session} (h : ∀ s, P s → P (g s)) : Preserves P (update g) :=
  fun _ hP => h _ hP

theorem demandKeys {ids : List Id} : Preserves P (Flow.demandKeys ids) := ofResult

theorem ite {c : Bool} {g : Flow α} (hf : Preserves P f) (hg : Preserves P g) :
    Preserves P (if c then f else g) := Leaves.ite (fun _ => hf) fun _ => hg

end Preserves

/-! ## What work yields -/

/-- Work that has a result wherever a property of sessions holds, and what is true of the result and
the session after it. -/
def Yields (P : Session → Prop) (f : Flow α) (Q : α → Session → Prop) : Prop :=
  ∀ d, P d.session → ∃ a d', f.perform d = (.ok a, d') ∧ Q a d'.session

namespace Yields

theorem bind (hf : Yields P f Q) (hk : ∀ a, Yields (Q a) (k a) R) : Yields P (f >>= k) R := by
  intro d hP
  obtain ⟨a, d₁, h₁, hQ⟩ := hf d hP
  obtain ⟨b, d₂, h₂, hR⟩ := hk a d₁ hQ
  exact ⟨b, d₂, by rw [perform_bind, h₁]; exact h₂, hR⟩

theorem mono (h : Yields P f Q) (hP : ∀ s, P' s → P s) (hQ : ∀ a s, Q a s → Q' a s) :
    Yields P' f Q' := by
  intro d hp
  obtain ⟨a, d', hperform, hq⟩ := h d (hP _ hp)
  exact ⟨a, d', hperform, hQ a _ hq⟩

/-- A fact that the property of the session implies may be used. -/
theorem given {p : Prop} (h : ∀ s, P s → p) (hf : p → Yields P f Q) : Yields P f Q :=
  fun d hP => hf (h _ hP) d hP

/-- Work goes on with a result that is known. -/
theorem bind_known {v : α} (hf : Yields P f fun a s => P' s ∧ a = v) (hk : Yields P' (k v) R) :
    Yields P (f >>= k) R := by
  refine bind hf fun a d h => ?_
  rw [h.2]
  exact hk d h.1

/-- Work that has a result has no other one. -/
theorem ensures (h : Yields P f Q) : Ensures P f Q := by
  intro d a d' hP hd
  obtain ⟨b, e, hperform, hQ⟩ := h d hP
  cases hperform.symm.trans hd
  exact hQ

theorem and_ensures (h : Yields P f Q) (h' : Ensures P f Q') :
    Yields P f fun a s => Q a s ∧ Q' a s := by
  intro d hP
  obtain ⟨a, d', hperform, hQ⟩ := h d hP
  exact ⟨a, d', hperform, hQ, h' d a d' hP hperform⟩

theorem pure {a : α} (h : ∀ s, P s → Q a s) : Yields P (pure a) Q := fun d hP => ⟨a, d, rfl, h _ hP⟩

theorem session : Yields P Flow.session fun s t => P t ∧ s = t := fun d hP => ⟨_, d, rfl, hP, rfl⟩

theorem update {g : Session → Session} {Q : Unit → Session → Prop} (h : ∀ s, P s → Q () (g s)) :
    Yields P (update g) Q := fun d hP => ⟨(), { d with session := g d.session }, rfl, h _ hP⟩

theorem log {e : Event} : Yields P (log e) fun _ => P :=
  fun d hP => ⟨(), { d with events := d.events ++ [e] }, rfl, hP⟩

theorem logAll {es : List Event} : Yields P (logAll es) fun _ => P :=
  fun d hP => ⟨(), { d with events := d.events ++ es }, rfl, hP⟩

theorem drawn {g : Generator → α × Generator} : Yields P (drawn g) fun _ => P :=
  fun d hP => ⟨(g d.generator).1, { d with generator := (g d.generator).2 }, rfl, hP⟩

theorem ofOk {r : Except Fault α} {a : α} (h : r = .ok a) :
    Yields P (ofResult r) fun b s => P s ∧ b = a := by
  intro d hP
  exact ⟨a, d, by rw [perform_ofResult, h], hP, rfl⟩

theorem of_reads {r : Session → Except Fault α} (h : f.Reads r)
    (hr : ∀ s, P s → ∃ a, r s = .ok a) : Yields P f fun _ => P := by
  intro d hP
  obtain ⟨a, ha⟩ := hr _ hP
  obtain ⟨hresult, hsession⟩ := h d
  refine ⟨a, (f.perform d).2, Prod.ext (hresult.trans ha) rfl, ?_⟩
  rw [hsession]
  exact hP

/-- Work that only reads yields what it reads in all sessions with a property. -/
theorem of_reads_known {r : Session → Except Fault α} (h : f.Reads r) {a : α}
    (hr : ∀ s, P s → r s = .ok a) : Yields P f fun b s => P s ∧ b = a := by
  intro d hd
  obtain ⟨hresult, hsession⟩ := h d
  rw [hr _ hd] at hresult
  refine ⟨a, (f.perform d).2, Prod.ext hresult rfl, ?_, rfl⟩
  rw [hsession]
  exact hd

/-- Work on the elements of a list has results if the work on each of them has one. -/
theorem mapM {g : β → Flow α} : ∀ {l : List β}, (∀ b ∈ l, Yields P (g b) fun _ => P) →
    Yields P (l.mapM g) fun _ => P
  | [], _ => pure fun _ h => h
  | b :: r, h => by
    rw [List.mapM_cons]
    exact bind (h b (.head _)) fun _ =>
      bind (mapM fun b hb => h b (.tail _ hb)) fun _ => pure fun _ h => h

/-- Two ways to go on, of which a truth value chooses one. -/
theorem ite {c : Bool} {g : Flow α} (hf : c = true → Yields P f Q) (hg : c = false → Yields P g Q) :
    Yields P (if c then f else g) Q := by
  cases c with
  | true => exact hf rfl
  | false => exact hg rfl

end Yields

/-! ## Why work fails -/

/-- Work that fails only with faults of a kind wherever a property of sessions holds. -/
def FailsOnly (P : Session → Prop) (f : Flow α) (E : Fault → Prop) : Prop :=
  ∀ d e d', P d.session → f.perform d = (.error e, d') → E e

/-- Work that has a result does not fail. -/
theorem Yields.failsOnly {E : Fault → Prop} (h : Yields P f Q) : FailsOnly P f E := by
  intro d e d' hP hd
  obtain ⟨a, d₁, hperform, -⟩ := h d hP
  cases hperform.symm.trans hd

namespace FailsOnly

variable {E E' : Fault → Prop}

/-- Work in sequence fails as its parts do, the second one with what the first ensures. -/
theorem bind (hf : FailsOnly P f E) (hQ : Ensures P f Q) (hk : ∀ a, FailsOnly (Q a) (k a) E) :
    FailsOnly P (f >>= k) E := by
  intro d e d' hP hd
  rw [perform_bind] at hd
  rcases h₁ : f.perform d with ⟨e₁ | a, d₁⟩ <;> rw [h₁] at hd
  · cases hd
    exact hf d e d' hP h₁
  · exact hk a d₁ e d' (hQ d a d₁ hP h₁) hd

/-- Work goes on with a result that it is known to have. -/
theorem bind_yields (hf : Yields P f Q) (hk : ∀ a, FailsOnly (Q a) (k a) E) :
    FailsOnly P (f >>= k) E := bind hf.failsOnly hf.ensures hk

/-- Work goes on with a result that is known. -/
theorem bind_known {v : α} (hf : Yields P f fun a s => P' s ∧ a = v) (hk : FailsOnly P' (k v) E) :
    FailsOnly P (f >>= k) E := by
  refine bind_yields hf fun a d e d' h hd => ?_
  rw [h.2] at hd
  exact hk d e d' h.1 hd

theorem mono (h : FailsOnly P f E) (hP : ∀ s, P' s → P s) (hE : ∀ e, E e → E' e) :
    FailsOnly P' f E' := fun d e d' hp hd => hE e (h d e d' (hP _ hp) hd)

/-- Work on one session that has the property. -/
theorem startingAt (h : FailsOnly P f E) {s : Session} (hs : P s) : FailsOnly (· = s) f E :=
  h.mono (fun _ ht => ht.symm ▸ hs) fun _ he => he

/-- A fact that the property of the session implies may be used. -/
theorem given {p : Prop} (h : ∀ s, P s → p) (hf : p → FailsOnly P f E) : FailsOnly P f E :=
  fun d e d' hP hd => hf (h _ hP) d e d' hP hd

theorem pure {a : α} : FailsOnly P (pure a) E := fun _ _ _ _ hd => nomatch hd

theorem throw {e : Fault} (he : E e) : FailsOnly P (throw e : Flow α) E := by
  intro d e' d' _ hd
  cases hd
  exact he

theorem ofResult {r : Except Fault α} (h : ∀ e, r = .error e → E e) :
    FailsOnly P (Flow.ofResult r) E := by
  intro d e d' _ hd
  rw [perform_ofResult] at hd
  cases hd
  exact h e rfl

/-- Work that only reads fails as what it reads does. -/
theorem of_reads {r : Session → Except Fault α} (h : f.Reads r)
    (hr : ∀ s e, P s → r s = .error e → E e) : FailsOnly P f E := by
  intro d e d' hP hd
  refine hr d.session e hP ?_
  rw [← (h d).1, hd]

/-- Two ways to go on, of which a truth value chooses one. -/
theorem ite {c : Bool} {g : Flow α} (hf : c = true → FailsOnly P f E)
    (hg : c = false → FailsOnly P g E) : FailsOnly P (if c then f else g) E := by
  cases c with
  | true => exact hf rfl
  | false => exact hg rfl

end FailsOnly

end Questionnaire.Flow
