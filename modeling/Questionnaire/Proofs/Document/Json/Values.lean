import Questionnaire.Proofs.Document.Json.Scalars

/-!
# JSON values read back

A value is read back from its text if no number with a fraction is in it and the members of every
mapping in it have names that differ (`IsPlain`): `parse?_print`. The induction is on the value. It
carries that the text is read as the value whatever stands behind it, as long as that ends a number,
with twice as much fuel as the text is long (`Rereads`); a list or mapping spends one on itself and
one on each element, and the brackets and commas make up for both. Inside a list or a mapping
the step for one element tells the last one, up to the bracket, from one with more behind it
(`elementsWithin_last` and `elementsWithin_more`, `membersWithin_last` and `membersWithin_more`).
-/

namespace Questionnaire.Json

open Questionnaire.Text

/-! ## How texts begin -/

theorem skipBlanks_cons {c : Char} (h : isJsonBlank c = false) (r : List Char) :
    skipBlanks (c :: r) = c :: r := by
  rw [skipBlanks, List.dropWhile_cons, h]
  rfl

/-- How the text of a value may begin. -/
def Begins (cs : List Char) : Prop :=
  ∃ c r, cs = c :: r ∧ isJsonBlank c = false ∧ c ≠ ']' ∧ c ≠ '}'

theorem Begins.append {cs : List Char} (h : Begins cs) (r : List Char) : Begins (cs ++ r) := by
  obtain ⟨c, ds, rfl, hc⟩ := h
  exact ⟨c, ds ++ r, rfl, hc⟩

theorem Begins.skipBlanks {cs : List Char} (h : Begins cs) : skipBlanks cs = cs := by
  obtain ⟨c, r, rfl, hc, -⟩ := h
  exact skipBlanks_cons hc r

theorem begins_string (s : String) : Begins (string s) :=
  ⟨doubleQuote, _, rfl, by decide, by decide, by decide⟩

theorem exists_toString (i : Int) :
    ∃ c r, (toString i).toList = c :: r ∧ (c = '-' ∨ c.isDigit = true) := by
  have hmem : ∀ c ∈ (toString i).toList, c = '-' ∨ c.isDigit = true :=
    fun _ hc => Binary64.mem_toString hc
  have hne : (toString i).toList ≠ [] := by
    rw [Binary64.toList_toString]
    split
    · exact List.cons_ne_nil _ _
    · exact Nat.toDigits_ne_nil
  obtain ⟨c, r, hcons⟩ := List.exists_cons_of_ne_nil hne
  exact ⟨c, r, hcons, hmem c (hcons ▸ List.mem_cons_self)⟩

/-- What is true of a minus and of the digits. -/
theorem of_minus_or_digit {P : Char → Prop} (hminus : P '-') (h : ∀ k < 10, P (Char.ofNat (48 + k)))
    {c : Char} (hc : c = '-' ∨ c.isDigit = true) : P c :=
  hc.elim (fun hc => hc ▸ hminus) (Binary64.forall_digit h)

theorem begins_chars (v : Value) (hv : ∀ x, v ≠ .float x) : Begins (chars v) := by
  cases v with
  | null => exact ⟨'n', _, by rw [chars]; rfl, by decide, by decide, by decide⟩
  | bool b =>
    cases b with
    | true => exact ⟨'t', _, by rw [chars]; rfl, by decide, by decide, by decide⟩
    | false => exact ⟨'f', _, by rw [chars]; rfl, by decide, by decide, by decide⟩
  | int i =>
    obtain ⟨c, r, hcons, hc⟩ := exists_toString i
    refine ⟨c, r, by rw [chars, hcons], ?_⟩
    exact of_minus_or_digit (P := fun c => isJsonBlank c = false ∧ c ≠ ']' ∧ c ≠ '}') (by decide)
      (by decide) hc
  | float x => exact absurd rfl (hv x)
  | text s => rw [chars]; exact begins_string s
  | list items => exact ⟨'[', _, by rw [chars]; rfl, by decide, by decide, by decide⟩
  | map entries => exact ⟨'{', _, by rw [chars]; rfl, by decide, by decide, by decide⟩

/-! ## Mappings in the order in which they are written -/

theorem putWritten_of_not_mem (k : String) (v : Value) :
    ∀ {l : List (String × Value)}, k ∉ l.map Prod.fst → Value.putWritten k v l = l ++ [(k, v)]
  | [], _ => rfl
  | (a, w) :: r, h => by
    simp only [List.map_cons, List.mem_cons, not_or] at h
    rw [Value.putWritten, if_neg h.1, putWritten_of_not_mem k v h.2, List.cons_append]

/-- Members under keys that differ stay as they are written. -/
theorem ofWritten_of_nodup {entries : List (String × Value)} (h : (entries.map Prod.fst).Nodup) :
    Value.ofWritten entries = .map entries := by
  have hfold : ∀ l acc : List (String × Value), ((acc ++ l).map Prod.fst).Nodup →
      l.foldl (fun l e => Value.putWritten e.1 e.2 l) acc = acc ++ l := by
    intro l
    induction l with
    | nil => exact fun acc _ => (List.append_nil acc).symm
    | cons e r ih =>
      intro acc hacc
      have hnot : e.1 ∉ acc.map Prod.fst := by
        rw [List.map_append, List.nodup_append] at hacc
        exact fun hmem => hacc.2.2 _ hmem e.1 (List.mem_cons_self) rfl
      rw [List.foldl_cons, putWritten_of_not_mem _ _ hnot, ih, List.append_assoc]
      · rfl
      · rwa [List.append_assoc]
  exact congrArg Value.map (hfold entries [] h)

/-! ## Values -/

/-- A value that is read back from its text: no number with a fraction is in it, and the members of
a mapping have names that differ. -/
inductive IsPlain : Value → Prop
  | null : IsPlain .null
  | bool (b : Bool) : IsPlain (.bool b)
  | int (i : Int) : IsPlain (.int i)
  | text (s : String) : IsPlain (.text s)
  | list {items : List Value} : (∀ v ∈ items, IsPlain v) → IsPlain (.list items)
  | map {entries : List (String × Value)} : (entries.map Prod.fst).Nodup →
      (∀ e ∈ entries, IsPlain e.2) → IsPlain (.map entries)

attribute [simp] IsPlain.null IsPlain.bool IsPlain.int IsPlain.text

theorem IsPlain.begins {v : Value} (h : IsPlain v) : Begins (chars v) := by
  refine begins_chars v fun x hx => ?_
  subst hx
  cases h

/-- The text of a value is read as the value, whatever ends it. -/
def Rereads (v : Value) : Prop :=
  ∀ (fuel : Nat) (r : List Char), 2 * (chars v).length ≤ fuel → EndsNumber r →
    valueWithin fuel (chars v ++ r) = some (v, r)

theorem endsNumber_cons {c : Char} (r : List Char)
    (h : c.isDigit = false ∧ c ≠ '.' ∧ c ≠ 'e' ∧ c ≠ 'E') : EndsNumber (c :: r) := by
  intro d hd
  obtain rfl := Option.mem_some_iff.1 hd
  exact h

theorem Begins.skipBlanks_after {cs : List Char} (h : Begins cs) :
    Json.skipBlanks (' ' :: cs) = cs := by
  have hblank : Json.skipBlanks (' ' :: cs) = Json.skipBlanks cs := rfl
  rw [hblank, h.skipBlanks]

theorem elementsWithin_last {fuel : Nat} {cs r : List Char} {v : Value}
    (h : valueWithin fuel cs = some (v, ']' :: r)) :
    elementsWithin (fuel + 1) cs = some ([v], r) := by
  rw [elementsWithin, h]
  rfl

theorem elementsWithin_more {fuel : Nat} {cs more : List Char} {v : Value}
    (h : valueWithin fuel cs = some (v, ',' :: ' ' :: more)) (hmore : Begins more) :
    elementsWithin (fuel + 1) cs = (elementsWithin fuel more).map fun p => (v :: p.1, p.2) := by
  rw [elementsWithin, h]
  simp only [skipBlanks_cons (c := ',') (by decide), hmore.skipBlanks_after]

theorem begins_elementChars {v : Value} (h : IsPlain v) (items : List Value) :
    Begins (elementChars (v :: items)) := by
  cases items with
  | nil => rw [elementChars]; exact h.begins
  | cons w r => rw [elementChars, List.append_assoc]; exact h.begins.append _

/-- The elements of a list are read one after the other up to the bracket. -/
theorem elementsWithin_chars (r : List Char) :
    ∀ (items : List Value) (fuel : Nat), items ≠ [] →
      (∀ v ∈ items, IsPlain v) → (∀ v ∈ items, Rereads v) →
      2 * (elementChars items).length + 1 ≤ fuel →
      elementsWithin fuel (elementChars items ++ ']' :: r) = some (items, r)
  | [v], fuel + 1, _, _, hread, hfuel => by
    rw [elementChars] at hfuel ⊢
    exact elementsWithin_last (hread v (.head _) fuel _ (by omega) (endsNumber_cons r (by decide)))
  | v :: w :: items, fuel + 1, _, hplain, hread, hfuel => by
    have hlength : (elementChars (v :: w :: items)).length =
        (chars v).length + 2 + (elementChars (w :: items)).length := by
      rw [elementChars, List.length_append, List.length_append]
      rfl
    have hrest := elementsWithin_chars r (w :: items) fuel (List.cons_ne_nil _ _)
      (fun u hu => hplain u (.tail _ hu)) (fun u hu => hread u (.tail _ hu)) (by omega)
    have hbegins := (begins_elementChars (hplain w (.tail _ (.head _))) items).append (']' :: r)
    have hchars : elementChars (v :: w :: items) ++ ']' :: r =
        chars v ++ ',' :: ' ' :: (elementChars (w :: items) ++ ']' :: r) := by
      rw [elementChars, List.append_assoc, List.append_assoc]
      rfl
    rw [hchars]
    generalize elementChars (w :: items) ++ ']' :: r = more at hrest hbegins
    have hfirst := hread v (.head _) fuel (',' :: ' ' :: more) (by omega)
      (endsNumber_cons _ (by decide))
    rw [elementsWithin_more hfirst hbegins, hrest]
    rfl

theorem membersWithin_last {fuel : Nat} {k : String} {cs r : List Char} {v : Value}
    (hbegins : Begins cs) (h : valueWithin fuel cs = some (v, '}' :: r)) :
    membersWithin (fuel + 1) (string k ++ (colon ++ cs)) = some ([(k, v)], r) := by
  have hkey := string?_string k (':' :: ' ' :: cs)
  have hcons : string k ++ (colon ++ cs) =
      doubleQuote :: ((string k).tail ++ ':' :: ' ' :: cs) := rfl
  rw [hcons, membersWithin]
  simp only [hkey, skipBlanks_cons (c := ':') (by decide), hbegins.skipBlanks_after, h,
    skipBlanks_cons (c := '}') (by decide), beq_self_eq_true, if_true]

theorem membersWithin_more {fuel : Nat} {k : String} {cs more : List Char} {v : Value}
    (hbegins : Begins cs) (h : valueWithin fuel cs = some (v, ',' :: ' ' :: more))
    (hmore : Begins more) :
    membersWithin (fuel + 1) (string k ++ (colon ++ cs)) =
      (membersWithin fuel more).map fun p => ((k, v) :: p.1, p.2) := by
  have hkey := string?_string k (':' :: ' ' :: cs)
  have hcons : string k ++ (colon ++ cs) =
      doubleQuote :: ((string k).tail ++ ':' :: ' ' :: cs) := rfl
  rw [hcons, membersWithin]
  simp only [hkey, skipBlanks_cons (c := ':') (by decide), hbegins.skipBlanks_after, h,
    skipBlanks_cons (c := ',') (by decide), hmore.skipBlanks_after, beq_self_eq_true, if_true]

theorem begins_memberChars (e : String × Value) (entries : List (String × Value)) :
    Begins (memberChars (e :: entries)) := by
  obtain ⟨k, v⟩ := e
  cases entries with
  | nil => rw [memberChars, List.append_assoc]; exact (begins_string k).append _
  | cons f r =>
    rw [memberChars, List.append_assoc, List.append_assoc, List.append_assoc]
    exact (begins_string k).append _

/-- The members of a mapping are read one after the other up to the brace. -/
theorem membersWithin_chars (r : List Char) :
    ∀ (entries : List (String × Value)) (fuel : Nat), entries ≠ [] →
      (∀ e ∈ entries, IsPlain e.2) → (∀ e ∈ entries, Rereads e.2) →
      2 * (memberChars entries).length + 1 ≤ fuel →
      membersWithin fuel (memberChars entries ++ '}' :: r) = some (entries, r)
  | [(k, v)], fuel + 1, _, hplain, hread, hfuel => by
    have hlength : (memberChars [(k, v)]).length =
        (string k).length + 2 + (chars v).length := by
      rw [memberChars, List.length_append, List.length_append]
      rfl
    have hvalue := hread (k, v) (.head _) fuel ('}' :: r) (by dsimp only; omega)
      (endsNumber_cons r (by decide))
    rw [memberChars, List.append_assoc, List.append_assoc]
    exact membersWithin_last ((hplain (k, v) (.head _)).begins.append _) hvalue
  | (k, v) :: e :: entries, fuel + 1, _, hplain, hread, hfuel => by
    have hlength : (memberChars ((k, v) :: e :: entries)).length =
        (string k).length + 2 + (chars v).length + 2 + (memberChars (e :: entries)).length := by
      rw [memberChars, List.length_append, List.length_append, List.length_append,
        List.length_append]
      rfl
    have hrest := membersWithin_chars r (e :: entries) fuel (List.cons_ne_nil _ _)
      (fun f hf => hplain f (.tail _ hf)) (fun f hf => hread f (.tail _ hf)) (by omega)
    have hbegins := (begins_memberChars e entries).append ('}' :: r)
    have hchars : memberChars ((k, v) :: e :: entries) ++ '}' :: r =
        string k ++ (colon ++
          (chars v ++ ',' :: ' ' :: (memberChars (e :: entries) ++ '}' :: r))) := by
      rw [memberChars, List.append_assoc, List.append_assoc, List.append_assoc, List.append_assoc]
      rfl
    rw [hchars]
    generalize memberChars (e :: entries) ++ '}' :: r = more at hrest hbegins
    have hvalue := hread (k, v) (.head _) fuel (',' :: ' ' :: more) (by dsimp only; omega)
      (endsNumber_cons _ (by decide))
    have hfirst := (hplain (k, v) (.head _)).begins.append (',' :: ' ' :: more)
    rw [membersWithin_more hfirst hvalue hbegins, hrest]
    rfl

/-- A text that begins like a number or a word is read as one. -/
theorem valueWithin_scalar {fuel : Nat} {c : Char} {cs : List Char} {x : Value × List Char}
    (hc : c ≠ '[' ∧ c ≠ '{' ∧ c ≠ doubleQuote) (h : scalar? (c :: cs) = some x) :
    valueWithin (fuel + 1) (c :: cs) = some x := by
  obtain ⟨hbracket, hbrace, hquote⟩ := hc
  simp [valueWithin, hquote, h]

theorem valueWithin_string {fuel : Nat} (s : String) (r : List Char) :
    valueWithin (fuel + 1) (string s ++ r) = some (.text s, r) := by
  have hcons : string s ++ r = doubleQuote :: ((string s).tail ++ r) := rfl
  rw [hcons]
  simp [valueWithin, doubleQuote, string?_string]

theorem valueWithin_list {fuel : Nat} {cs r : List Char} {items : List Value} (hcs : Begins cs)
    (h : elementsWithin fuel cs = some (items, r)) :
    valueWithin (fuel + 1) ('[' :: cs) = some (.list items, r) := by
  have hskip := hcs.skipBlanks
  obtain ⟨c, ds, rfl, -, hbracket, -⟩ := hcs
  simp [valueWithin, hskip, hbracket, h]

theorem valueWithin_map {fuel : Nat} {cs r : List Char} {entries : List (String × Value)}
    (hcs : Begins cs) (h : membersWithin fuel cs = some (entries, r)) :
    valueWithin (fuel + 1) ('{' :: cs) = some (Value.ofWritten entries, r) := by
  have hskip := hcs.skipBlanks
  obtain ⟨c, ds, rfl, -, -, hbrace⟩ := hcs
  simp [valueWithin, hskip, hbrace, h]

theorem chars_list (items : List Value) (r : List Char) :
    chars (.list items) ++ r = '[' :: (elementChars items ++ ']' :: r) := by
  simp [chars]

theorem chars_map (entries : List (String × Value)) (r : List Char) :
    chars (.map entries) ++ r = '{' :: (memberChars entries ++ '}' :: r) := by
  simp [chars]

theorem IsPlain.rereads {v : Value} (h : IsPlain v) : Rereads v := by
  -- Fuel is never zero, since a text is never empty.
  have hpos : ∀ {v : Value} {fuel : Nat}, IsPlain v → 2 * (chars v).length ≤ fuel →
      ∃ n, fuel = n + 1 := by
    intro v fuel hv hfuel
    obtain ⟨c, r, hcons, -⟩ := hv.begins
    rw [hcons, List.length_cons] at hfuel
    exact ⟨fuel - 1, by omega⟩
  induction h with
  | null =>
    intro fuel r hfuel _
    obtain ⟨fuel, rfl⟩ := hpos .null hfuel
    rw [chars]
    exact valueWithin_scalar (by decide) rfl
  | bool b =>
    intro fuel r hfuel _
    obtain ⟨fuel, rfl⟩ := hpos (.bool b) hfuel
    rw [chars]
    cases b with
    | true => exact valueWithin_scalar (by decide) rfl
    | false => exact valueWithin_scalar (by decide) rfl
  | int i =>
    intro fuel r hfuel hr
    obtain ⟨fuel, rfl⟩ := hpos (.int i) hfuel
    obtain ⟨c, ds, hcons, hc⟩ := exists_toString i
    have hscalar := scalar?_int i hr
    rw [chars]
    rw [hcons, List.cons_append] at hscalar ⊢
    exact valueWithin_scalar (of_minus_or_digit
      (P := fun c => c ≠ '[' ∧ c ≠ '{' ∧ c ≠ doubleQuote) (by decide) (by decide) hc) hscalar
  | text s =>
    intro fuel r hfuel _
    obtain ⟨fuel, rfl⟩ := hpos (.text s) hfuel
    rw [chars]
    exact valueWithin_string s r
  | @list items hplain ih =>
    intro fuel r hfuel _
    obtain ⟨fuel, rfl⟩ := hpos (.list hplain) hfuel
    have hlength := congrArg List.length (chars_list items [])
    simp only [List.append_nil, List.length_cons, List.length_append, List.length_nil] at hlength
    rw [chars_list]
    cases items with
    | nil => rfl
    | cons v r' =>
      refine valueWithin_list ((begins_elementChars (hplain v (.head _)) r').append _) ?_
      exact elementsWithin_chars r _ fuel (List.cons_ne_nil _ _) hplain ih (by omega)
  | @map entries hkeys hplain ih =>
    intro fuel r hfuel _
    obtain ⟨fuel, rfl⟩ := hpos (.map hkeys hplain) hfuel
    have hlength := congrArg List.length (chars_map entries [])
    simp only [List.append_nil, List.length_cons, List.length_append, List.length_nil] at hlength
    rw [chars_map, ← ofWritten_of_nodup hkeys]
    cases entries with
    | nil => rfl
    | cons e r' =>
      refine valueWithin_map ((begins_memberChars e r').append _) ?_
      exact membersWithin_chars r _ fuel (List.cons_ne_nil _ _) hplain ih (by omega)

/-- A plain value is read back from its text. -/
theorem parse?_print {v : Value} (h : IsPlain v) : parse? (print v) = some v := by
  have hskip : skipBlanks (print v).toList = chars v := by
    rw [print, String.toList_ofList, h.begins.skipBlanks]
  have hread := h.rereads (2 * (chars v).length + 2) [] (by omega) (by simp [EndsNumber])
  rw [List.append_nil] at hread
  rw [parse?, hskip, hread]
  rfl

end Questionnaire.Json
