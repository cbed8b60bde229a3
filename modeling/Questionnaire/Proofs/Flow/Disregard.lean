import Questionnaire.Proofs.Flow

/-!
# Work that has nothing to do with an order

Work disregards a key if it is the same work whatever order the session has under the key: it comes
to the same result and leaves the same behind, and what was under the key still is. So it neither
reads nor changes what is there (`Flow.Disregards.keeps`). The combinators of `Flow` pass this on.
-/

namespace Questionnaire

/-! ## Any order under a key -/

namespace Dict

variable {α : Type} (d : Dict α) (k j : String) (o : Option α)

/-- The dictionary with a value under a key, or with none. -/
def assign : Option α → Dict α
  | some v => d.set k v
  | none => d.erase k

theorem get?_assign : (d.assign k o).get? j = if j = k then o else d.get? j := by
  cases o with
  | some v => exact get?_set d k j v
  | none => exact get?_erase d k j

theorem assign_get? : d.assign k (d.get? k) = d := by
  refine ext_get? fun j => ?_
  rw [get?_assign]
  split
  · next hj => rw [hj]
  · rfl

variable {d k j o}

/-- What is put under different keys is put there in any sequence. -/
theorem set_assign {v : α} (hne : j ≠ k) : (d.assign k o).set j v = (d.set j v).assign k o := by
  refine ext_get? fun i => ?_
  rw [get?_set, get?_assign, get?_assign, get?_set]
  by_cases hi : i = j
  · rw [if_pos hi, if_neg (hi ▸ hne), if_pos hi]
  · rw [if_neg hi, if_neg hi]

end Dict

/-- The session with an order under a key, or with none. -/
def Session.withOrder (s : Session) (key : String) (o : Option (List Id)) : Session :=
  { s with orders := s.orders.assign key o }

/-- The desk with an order of its session under a key, or with none. -/
def Desk.withOrder (d : Desk) (key : String) (o : Option (List Id)) : Desk :=
  { d with session := d.session.withOrder key o }

namespace Flow

variable {α β : Type} {f : Flow α} {k : α → Flow β} {key : String}

/-- Work that is the same whatever order there is under a key, and leaves that order as it is. -/
def Disregards (key : String) (f : Flow α) : Prop :=
  ∀ d o, f.perform (d.withOrder key o) = ((f.perform d).1, (f.perform d).2.withOrder key o)

namespace Disregards

/-- What is under the key stays there. -/
theorem keeps (h : Disregards key f) (d : Desk) :
    (f.perform d).2.session.orders.get? key = d.session.orders.get? key := by
  have hsame : d.withOrder key (d.session.orders.get? key) = d := by
    rw [Desk.withOrder, Session.withOrder, Dict.assign_get?]
  have hperform := h d (d.session.orders.get? key)
  rw [hsame] at hperform
  rw [congrArg Prod.snd hperform, Desk.withOrder, Session.withOrder, Dict.get?_assign, if_pos rfl]

theorem pure {a : α} : Disregards key (pure a : Flow α) := fun _ _ => rfl

theorem throw {e : Fault} : Disregards key (throw e : Flow α) := fun _ _ => rfl

theorem log {e : Event} : Disregards key (log e) := fun _ _ => rfl

theorem logAll {es : List Event} : Disregards key (logAll es) := fun _ _ => rfl

theorem drawn {g : Generator → α × Generator} : Disregards key (drawn g) := fun _ _ => rfl

theorem ofResult {r : Except Fault α} : Disregards key (ofResult r) := by
  intro d o
  rw [perform_ofResult, perform_ofResult]

theorem demandKeys {ids : List Id} : Disregards key (Flow.demandKeys ids) := ofResult

theorem demandComparable {l : List Value} : Disregards key (Flow.demandComparable l) := ofResult

theorem update {g : Session → Session}
    (h : ∀ s o, g (s.withOrder key o) = (g s).withOrder key o) : Disregards key (update g) := by
  intro d o
  show (_, { d.withOrder key o with session := g (d.session.withOrder key o) }) = _
  rw [h]
  rfl

/-- The second part may rely on what the first one ensures of its result. -/
theorem bind_ensures {p : α → Prop} (hf : Disregards key f)
    (hp : Ensures (fun _ => True) f fun a _ => p a) (hk : ∀ a, p a → Disregards key (k a)) :
    Disregards key (f >>= k) := by
  intro d o
  rw [perform_bind, perform_bind, hf]
  rcases hperform : f.perform d with ⟨_ | a, d'⟩
  · rfl
  · exact hk a (hp d a d' trivial hperform) d' o

theorem bind (hf : Disregards key f) (hk : ∀ a, Disregards key (k a)) : Disregards key (f >>= k) :=
  bind_ensures (p := fun _ => True) hf (fun _ _ _ _ _ => trivial) fun a _ => hk a

/-- Work that goes on with the session disregards a key if it does not use what is under it. -/
theorem bind_session {k : Session → Flow β} (hk : ∀ s, Disregards key (k s))
    (hsame : ∀ s o, k (s.withOrder key o) = k s) : Disregards key (Flow.session >>= k) := by
  intro d o
  rw [perform_bind, perform_bind]
  show (k (d.session.withOrder key o)).perform (d.withOrder key o) = _
  rw [hsame]
  exact hk d.session d o

theorem ite {c : Bool} {g : Flow α} (hf : c = true → Disregards key f)
    (hg : c = false → Disregards key g) : Disregards key (if c then f else g) := by
  cases c with
  | true => exact hf rfl
  | false => exact hg rfl

theorem mapM {g : β → Flow α} : ∀ {l : List β}, (∀ b ∈ l, Disregards key (g b)) →
    Disregards key (l.mapM g)
  | [], _ => pure
  | b :: r, h => by
    rw [List.mapM_cons]
    exact (h b (.head _)).bind fun _ => (mapM fun b hb => h b (.tail _ hb)).bind fun _ => pure

end Disregards

end Flow

end Questionnaire
