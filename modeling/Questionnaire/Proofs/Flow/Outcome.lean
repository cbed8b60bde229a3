import Questionnaire.Proofs.Flow

/-!
# Work with a known outcome

Most work on a session has one outcome, which the session alone decides: a result or a fault, and
the session that is left (`Flow.Gives`). Such work draws nothing, so what comes after it goes on
with the same generator (`Gives.perform_bind`); only the log grows. Work that reads no more of a
session than a property fixes has the same outcome on all sessions with the property
(`Flow.Constant`).
-/

namespace Questionnaire.Flow

variable {α β : Type}

/-- Work that, done on a session, comes to an end in one way and leaves one session behind, whatever
the generator and the log. It draws nothing. -/
def Gives (s : Session) (f : Flow α) (r : Except Fault α) (t : Session) : Prop :=
  ∀ d : Desk, d.session = s → ∃ events, f.perform d = (r, ⟨t, d.generator, events⟩)

variable {s t u : Session} {f : Flow α} {k : α → Flow β} {a : α} {r : Except Fault α}
  {r' : Except Fault β} {e : Fault}

namespace Gives

/-- What comes after work with a result goes on from the session that is left. -/
theorem perform_bind (h : Gives s f (.ok a) t) {d : Desk} (hd : d.session = s) :
    ∃ events, (f >>= k).perform d = (k a).perform ⟨t, d.generator, events⟩ := by
  obtain ⟨events, hperform⟩ := h d hd
  exact ⟨events, by rw [Flow.perform_bind, hperform]⟩

theorem bind (hf : Gives s f (.ok a) t) (hk : Gives t (k a) r' u) : Gives s (f >>= k) r' u := by
  intro d hd
  obtain ⟨events, hperform⟩ := hf.perform_bind (k := k) hd
  obtain ⟨events', hrest⟩ := hk ⟨t, d.generator, events⟩ rfl
  exact ⟨events', hperform.trans hrest⟩

/-- Nothing comes after work that fails. -/
theorem bind_error (hf : Gives s f (.error e) t) : Gives s (f >>= k) (.error e) t := by
  intro d hd
  obtain ⟨events, hperform⟩ := hf d hd
  exact ⟨events, by rw [Flow.perform_bind, hperform]⟩

theorem pure : Gives s (pure a) (.ok a) s := fun d hd => ⟨d.events, by rw [perform_pure, ← hd]⟩

theorem throw : Gives s (throw e : Flow α) (.error e) s := fun d hd => ⟨d.events, by rw [← hd]; rfl⟩

theorem session : Gives s Flow.session (.ok s) s := fun d hd => ⟨d.events, by rw [← hd]; rfl⟩

theorem log {x : Event} : Gives s (log x) (.ok ()) s :=
  fun d hd => ⟨d.events ++ [x], by rw [← hd]; rfl⟩

theorem logAll {es : List Event} : Gives s (logAll es) (.ok ()) s :=
  fun d hd => ⟨d.events ++ es, by rw [← hd]; rfl⟩

theorem update {g : Session → Session} : Gives s (update g) (.ok ()) (g s) :=
  fun d hd => ⟨d.events, by rw [← hd]; rfl⟩

theorem ofResult : Gives s (ofResult r) r s :=
  fun d hd => ⟨d.events, by rw [perform_ofResult, ← hd]⟩

theorem ofOk (h : r = .ok a) : Gives s (Flow.ofResult r) (.ok a) s := h ▸ ofResult

/-- Something can be kept under ids none of which is a list or a mapping. -/
theorem demandKeys {ids : List Id} (h : ∀ id ∈ ids, id.isCompound = false) :
    Gives s (Flow.demandKeys ids) (.ok ()) s := ofOk (demandKeys_eq_ok_iff.2 h)

end Gives

/-- Work whose outcome is a result on all sessions with a property yields that. -/
theorem Yields.of_gives {P : Session → Prop} {Q : α → Session → Prop} {g : Session → Session}
    (h : ∀ s, P s → Gives s f (.ok a) (g s)) (hQ : ∀ s, P s → Q a (g s)) : Yields P f Q := by
  intro d hP
  obtain ⟨events, hperform⟩ := h _ hP d rfl
  exact ⟨a, _, hperform, hQ _ hP⟩

/-! ## The same outcome on many sessions -/

/-- Work with the same result or fault on all sessions with a property, which it leaves as they
are. -/
def Constant (P : Session → Prop) (f : Flow α) : Prop := ∃ r, ∀ s, P s → Gives s f r s

namespace Constant

variable {P : Session → Prop}

theorem bind (hf : Constant P f) (hk : ∀ a, Constant P (k a)) : Constant P (f >>= k) := by
  obtain ⟨r, hr⟩ := hf
  cases r with
  | error e => exact ⟨.error e, fun s hs => (hr s hs).bind_error⟩
  | ok a =>
    obtain ⟨r', hr'⟩ := hk a
    exact ⟨r', fun s hs => (hr s hs).bind (hr' s hs)⟩

/-- Work goes on with what the property fixes of the session. -/
theorem bind_session {k : Session → Flow β} (c : Session) (hc : ∀ s, P s → k s = k c)
    (hk : Constant P (k c)) : Constant P (Flow.session >>= k) := by
  obtain ⟨r, hr⟩ := hk
  refine ⟨r, fun s hs => Gives.session.bind ?_⟩
  rw [hc s hs]
  exact hr s hs

theorem pure {a : α} : Constant P (pure a) := ⟨_, fun _ _ => Gives.pure⟩

theorem throw {e : Fault} : Constant P (throw e : Flow α) := ⟨_, fun _ _ => Gives.throw⟩

theorem log {x : Event} : Constant P (log x) := ⟨_, fun _ _ => Gives.log⟩

theorem logAll {es : List Event} : Constant P (logAll es) := ⟨_, fun _ _ => Gives.logAll⟩

theorem ofResult {r : Except Fault α} : Constant P (ofResult r) := ⟨r, fun _ _ => Gives.ofResult⟩

theorem demandKeys {ids : List Id} : Constant P (Flow.demandKeys ids) := ofResult

theorem ite {c : Bool} {g : Flow α} (hf : Constant P f) (hg : Constant P g) :
    Constant P (if c then f else g) := by
  cases c with
  | true => exact hf
  | false => exact hg

end Constant

end Questionnaire.Flow
