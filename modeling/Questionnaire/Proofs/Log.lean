import Questionnaire.Proofs.Flow

/-!
# Laws of the log

Work adds events to the end of the log and takes none back. `Flow.Logs f E` says that all that the
work adds satisfies `E`, whether it has a result or fails.
-/

namespace Questionnaire.Flow

variable {α β : Type} {E : Event → Prop} {f : Flow α} {k : α → Flow β}

/-- Work that adds to the log only events that satisfy `E`. -/
def Logs (f : Flow α) (E : Event → Prop) : Prop :=
  ∀ d, ∃ es, (f.perform d).2.events = d.events ++ es ∧ ∀ e ∈ es, E e

namespace Logs

/-- Work that leaves the log as it is. -/
theorem nothing (h : ∀ d, (f.perform d).2.events = d.events) : Logs f E :=
  fun d => ⟨[], by rw [h d, List.append_nil], nofun⟩

/-- Work in sequence logs what both parts log, the second one with what the first ensures. -/
theorem bind_ensures {Q : α → Prop} (hf : Logs f E)
    (hQ : Ensures (fun _ => True) f fun a _ => Q a) (hk : ∀ a, Q a → Logs (k a) E) :
    Logs (f >>= k) E := by
  intro d
  obtain ⟨es, hes, hall⟩ := hf d
  rw [perform_bind]
  rcases hd : f.perform d with ⟨e | a, d'⟩ <;> rw [hd] at hes
  · exact ⟨es, hes, hall⟩
  · obtain ⟨es', hes', hall'⟩ := hk a (hQ d a d' trivial hd) d'
    refine ⟨es ++ es', ?_, List.forall_mem_append.2 ⟨hall, hall'⟩⟩
    rw [← List.append_assoc, ← hes]
    exact hes'

theorem bind (hf : Logs f E) (hk : ∀ a, Logs (k a) E) : Logs (f >>= k) E :=
  bind_ensures (Q := fun _ => True) hf (fun _ _ _ _ _ => trivial) fun a _ => hk a

theorem pure {a : α} : Logs (pure a) E := nothing fun _ => rfl

theorem throw {e : Fault} : Logs (throw e : Flow α) E := nothing fun _ => rfl

theorem session : Logs Flow.session E := nothing fun _ => rfl

theorem update {g : Session → Session} : Logs (update g) E := nothing fun _ => rfl

theorem drawn {g : Generator → α × Generator} : Logs (drawn g) E := nothing fun _ => rfl

theorem ofResult {r : Except Fault α} : Logs (ofResult r) E :=
  nothing fun d => by rw [perform_ofResult]

theorem demandKeys {ids : List Id} : Logs (Flow.demandKeys ids) E := ofResult

theorem demandComparable {l : List Value} : Logs (Flow.demandComparable l) E := ofResult

theorem logAll {es : List Event} (h : ∀ e ∈ es, E e) : Logs (logAll es) E := fun _ => ⟨es, rfl, h⟩

theorem log {e : Event} (h : E e) : Logs (log e) E :=
  fun _ => ⟨[e], rfl, List.forall_mem_singleton.2 h⟩

theorem ite {c : Bool} {g : Flow α} (hf : Logs f E) (hg : Logs g E) :
    Logs (if c then f else g) E := by
  cases c with
  | true => exact hf
  | false => exact hg

theorem mapM {g : β → Flow α} : ∀ {l : List β}, (∀ b ∈ l, Logs (g b) E) → Logs (l.mapM g) E
  | [], _ => pure
  | b :: r, h => by
    rw [List.mapM_cons]
    exact (h b (.head _)).bind fun _ => (mapM fun b hb => h b (.tail _ hb)).bind fun _ => pure

end Logs

end Questionnaire.Flow
