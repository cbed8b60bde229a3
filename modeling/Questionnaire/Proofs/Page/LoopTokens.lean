import Questionnaire.Proofs.Document.Reading
import Questionnaire.Proofs.Page.Piping
import Questionnaire.Proofs.Register
import Questionnaire.Proofs.Session.Cursor
import Questionnaire.Proofs.Session.Percent

/-!
# Texts with loop tokens

What an author writes is a row of parts: texts without opening braces, which stay as they are, and
names in double braces, which stand for something about the current iteration (`Wording.Part`).
Whatever stands around them, the text that the parts make is cut into the tokens that were written
and the characters between them (`Wording.cut_written`).

A name that begins with `attributes.` means an attribute of the item. Any other name is looked up
among the seven names that every iteration has, and then among the attributes
(`Wording.nameText?`). Each token is replaced by the text of its name, if it has one; all else
stays, and what is put in is left alone (`Wording.resolveLoop_written`).
-/

namespace Questionnaire

/-! ## Iterations of a plan -/

/-- The iteration of an item with texts, at an index of a list of `n` items. -/
structure Iteration.Regular (i : Iteration) (key label : String) (k n : Int) : Prop where
  key : i.item.key = .text key
  label : i.item.label = .text label
  index : i.index = .int k
  total : i.total = .int n

/-- What a plan shows whose cursor is an integer is the iteration of one of its items, counted from
either end. -/
theorem LoopPlan.regular_of_iteration {p : LoopPlan} {c : Int} {i : Iteration} {key label : String}
    (hcursor : p.cursor = .int c) (hi : p.iteration = .ok (some i))
    (hkey : i.item.key = .text key) (hlabel : i.item.label = .text label) :
    let n : Int := p.items.length
    let k := min c (n - 1)
    i.Regular key label k n ∧ -n ≤ k ∧ k < n := by
  intro n k
  have hne : p.items ≠ [] := fun hnil => by
    rw [iteration_of_items_eq_nil hnil] at hi
    cases hi
  have hindex : p.displayIndex = .ok (some (.int k)) := by
    simp [displayIndex, hcursor, hne, k, n]
  have hpos := List.length_pos_iff.2 hne
  cases hitem : p.itemAt? k with
  | none => simp [iteration, hindex, itemAt, hitem, bind, Except.bind] at hi
  | some item =>
    simp only [iteration, hindex, itemAt, hitem, bind, Except.bind, Except.ok.injEq,
      Option.some.injEq] at hi
    subst hi
    refine ⟨⟨hkey, hlabel, rfl, rfl⟩, ?_, by omega⟩
    by_contra hbelow
    rw [itemAt?, if_neg (by omega), if_neg (by omega)] at hitem
    cases hitem

/-! ## Names -/

namespace Wording

/-- The texts of the seven names that every iteration has, for one at index `k` of `n`. -/
def builtinTexts (key label : String) (k n percent : Int) : List (String × String) :=
  [("key", key), ("label", label), ("index", toString (k + 1)), ("total", toString n),
    ("isFirst", truthWord (decide (k = 0))), ("isLast", truthWord (decide (k = n - 1))),
    ("progress", toString percent)]

/-- The text of a name, if it has one: a name that begins with `attributes.` means an attribute, and
any other name is looked up among those that every iteration has and then among the attributes. -/
def nameText? (builtin : List (String × String)) (attributes : Register Value) (name : String) :
    Option String :=
  let attribute? (own : String) := (attributes.get? (.text own)).map Value.display
  match after? attributesOpening name.toList with
  | some own => attribute? (String.ofList own)
  | none => (builtin.lookup name).or (attribute? name)

section Names

variable {i : Iteration} {key label : String} {k n percent : Int}
  (h : i.Regular key label k n) (hpercent : i.roundedPercent = .ok percent)
include h hpercent

theorem builtins_eq : builtins i = .ok ((builtinTexts key label k n percent).map fun e =>
    (e.1, .text e.2)) := by
  have hnumber : i.number = .ok (.int (k + 1)) := by rw [Iteration.number, h.index]; rfl
  have hequal (a b : Int) : (Value.int a).equal (.int b) = decide (a = b) := by
    simp [Value.equal, Value.isNan, Value.agrees, Value.canonical, beq_eq_decide]
  have hfirst : i.isFirst = decide (k = 0) := by rw [Iteration.isFirst, h.index, hequal]
  have hlast : i.isLast = .ok (decide (k = n - 1)) := by
    rw [Iteration.isLast, h.index, h.total]
    show Except.ok ((Value.int k).equal (.int (n + -1))) = _
    rw [hequal, Int.sub_eq_add_neg]
  rw [builtins, hnumber, hlast, hpercent, hfirst, h.key, h.label, h.total]
  rfl

/-- What is looked up in an iteration is the text of the name. -/
theorem loopValue?_eq : ∃ values, loopValues i = .ok values ∧ ∀ name, loopValue? i values name =
    .ok (nameText? (builtinTexts key label k n percent) i.item.attributes name) := by
  let texts := builtinTexts key label k n percent
  let values : Register Value := texts.foldl (fun r e => r.set (.text e.1) (.text e.2))
    (i.item.attributes.map fun v => .text v.display)
  have hvalues : loopValues i = .ok values := by
    rw [loopValues, builtins_eq h hpercent]
    rfl
  have hfound (name : String) : values.get? (.text name) = ((texts.lookup name).map .text).or
      ((i.item.attributes.get? (.text name)).map fun v => .text v.display) := by
    rw [Register.get?_foldl_set _ _ (by simp [texts, builtinTexts]), Register.get?_map]
  refine ⟨values, hvalues, fun name => ?_⟩
  rw [loopValue?, nameText?, hfound]
  cases after? attributesOpening name.toList with
  | some own => rfl
  | none =>
    dsimp only
    cases texts.lookup name with
    | some text => rfl
    | none => cases i.item.attributes.get? (.text name) <;> rfl

end Names

/-! ## Texts as they are written -/

/-- A part of a text as its author means it: what stays as it is, or the name of something about the
current iteration. -/
inductive Part
  | literal (cs : List Char)
  | token (name : String)

namespace Part

/-- The part as it is written. -/
def written : Part → List Char
  | literal cs => cs
  | token name => "\x7b\x7bloop.".toList ++ (name.toList ++ ['}', '}'])

/-- A part that can be told from those around it: what stays as it is has no opening braces, and a
name is not empty and has no braces. -/
def IsPlain : Part → Prop
  | literal cs => '{' ∉ cs
  | token name => name ≠ "" ∧ ∀ c ∈ name.toList, isBrace c = false

instance : DecidablePred IsPlain
  | literal cs => inferInstanceAs (Decidable ('{' ∉ cs))
  | token name => inferInstanceAs (Decidable (name ≠ "" ∧ ∀ c ∈ name.toList, isBrace c = false))

/-- Whether the part is a token. -/
def isToken : Part → Bool
  | literal _ => false
  | token _ => true

/-- The part with its token replaced by the text of its name, if it has one. -/
def replaced (text? : String → Option String) : Part → List Char
  | literal cs => cs
  | token name => ((text? name).map String.toList).getD (token name).written

/-- The pieces that the part is cut into. -/
def cut : Part → List (Piece String)
  | literal cs => cs.map .char
  | token name => [.token (token name).written name]

end Part

/-- The text that parts make one after the other. -/
def written (parts : List Part) : String := String.ofList (parts.flatMap Part.written)

/-- A text is cut into the tokens that were written and the characters between them. -/
theorem cut_written : ∀ {parts : List Part}, (∀ p ∈ parts, p.IsPlain) →
    Cut loopToken? (parts.flatMap Part.written) (parts.flatMap Part.cut)
  | [], _ => .nil
  | p :: parts, h => by
    obtain ⟨hp, hparts⟩ := List.forall_mem_cons.1 h
    have hrest := cut_written hparts
    rw [List.flatMap_cons, List.flatMap_cons]
    cases p with
    | literal cs =>
      refine hrest.chars fun s hs hne => ?_
      obtain ⟨c, r, rfl⟩ := List.exists_cons_of_ne_nil hne
      have hc : c ≠ '{' := fun hc => hp (hs.subset (by simp [hc]))
      exact bracedToken?_of_ne rfl hc
    | token name =>
      obtain ⟨hne, hbraces⟩ := hp
      refine .token (bracedToken?_eq_some_iff.2 ⟨name.toList, _, rfl, rfl, ?_, ?_, hbraces⟩) hrest
      · exact (String.ofList_toList).symm
      · simpa using hne

theorem substitute_cut (text? : String → Option String) : ∀ parts : List Part,
    substitute text? (parts.flatMap Part.cut) = parts.flatMap (Part.replaced text?)
  | [] => rfl
  | p :: parts => by
    rw [List.flatMap_cons, List.flatMap_cons, substitute_append, substitute_cut text? parts]
    cases p with
    | literal cs => rw [Part.cut, substitute_chars, Part.replaced]
    | token name =>
      rw [Part.cut, substitute_token, substitute_nil, List.append_nil, Part.replaced]

theorem any_cut (parts : List Part) :
    (parts.flatMap Part.cut).any Piece.isToken = parts.any Part.isToken := by
  rw [List.any_flatMap]
  congr 1
  funext p
  cases p with
  | literal cs => simp [Part.cut, Piece.isToken, Part.isToken]
  | token name => rfl

/-- Loop tokens are replaced once and only where they were written: the result is the same row of
parts with each token replaced by the text of its name, or left as written if it has none. This
takes a percentage, which the iteration of an item always has. A text has loop tokens exactly if one
was written. -/
theorem resolveLoop_written {i : Iteration} {key label : String} {k n : Int}
    (hi : i.Regular key label k n) {parts : List Part} (h : ∀ p ∈ parts, p.IsPlain) :
    (-n ≤ k → k < n → ∃ percent, i.roundedPercent = .ok percent) ∧
    (∀ percent, i.roundedPercent = .ok percent →
      resolveLoop (written parts) (some i) = .ok (String.ofList (parts.flatMap
        (Part.replaced (nameText? (builtinTexts key label k n percent) i.item.attributes))))) ∧
    (hasLoopTokens (written parts) = true ↔ ∃ name, .token name ∈ parts) := by
  have hpieces : pieces loopToken? (written parts).toList = parts.flatMap Part.cut := by
    rw [written, String.toList_ofList]
    exact (cut_written h).pieces_eq finds_loopToken?
  refine ⟨fun hlower hupper => ?_, fun percent hpercent => ?_, ?_⟩
  · exact Iteration.exists_roundedPercent hi.index hi.total (by omega) (by omega)
  · obtain ⟨values, hvalues, hvalue⟩ := loopValue?_eq hi hpercent
    have hresult : resolvePieces (loopValue? i values) (pieces loopToken? (written parts).toList) =
        .ok (String.ofList (parts.flatMap
          (Part.replaced (nameText? (builtinTexts key label k n percent) i.item.attributes)))) := by
      rw [hpieces, resolvePieces_eq, resolved_eq_substitute fun _ name _ => hvalue name,
        substitute_cut]
      rfl
    rw [← hresult, resolveLoop, hvalues]
    split
    · next hempty =>
      rw [eq_of_beq hempty]
      rfl
    · rfl
  · rw [hasLoopTokens, hpieces, any_cut, List.any_eq_true]
    constructor
    · rintro ⟨p, hp, htoken⟩
      cases p with
      | literal cs => cases htoken
      | token name => exact ⟨name, hp⟩
    · rintro ⟨name, hname⟩
      exact ⟨.token name, hname, rfl⟩

end Wording

/-! ## A visit to a store -/

namespace Sample.StoreVisit

/-- A store with a label and attributes. -/
def store (key label : String) (attributes : List (String × String)) : LoopItem where
  key := .text key
  label := .text label
  attributes := .ofTexts (Dict.ofList (attributes.map fun e => (e.1, .text e.2)))

/-- The second of three visits. One attribute has the name of something that every iteration has,
and looks like a token. -/
def visits : LoopPlan where
  batteryId := .text "stores"
  items := [store "rivoli" "Rue de Rivoli" [],
    store "oxford" "Oxford Street" [("city", "London"), ("label", BrandTracker.loopToken "key")],
    store "kudamm" "Kurfuerstendamm" []]
  cursor := .int 1

/-- The iteration of that visit. -/
def visit : Iteration := ⟨visits.batteryId, visits.items[1], .int 1, .int 3⟩

/-- A text with closing braces that belong to no token. -/
def parts : List Wording.Part :=
  [.literal "Rate \x7d".toList, .token "label", .literal "\x7d\x7d in ".toList, .token "city",
    .token "attributes.label", .token "country", .literal " ".toList, .token "progress"]

theorem regular : visit.Regular "oxford" "Oxford Street" 1 3 ∧ (-3 : Int) ≤ 1 ∧ (1 : Int) < 3 :=
  LoopPlan.regular_of_iteration (p := visits) (c := 1) rfl rfl rfl rfl

theorem isPlain : ∀ p ∈ parts, p.IsPlain := by
  simp [parts, Wording.Part.IsPlain, Wording.isBrace]

end Sample.StoreVisit

open Sample Sample.StoreVisit in
/-- The attribute is put in where it is meant, and not taken for a token; the name that the
iteration does not have stays. -/
theorem Wording.resolveLoop_written_storeVisit :
    (resolveLoop (written parts) (some visit)).toOption =
      some ("Rate \x7dOxford Street\x7d\x7d in London" ++ BrandTracker.loopToken "key" ++
        BrandTracker.loopToken "country" ++ " 67") ∧
    hasLoopTokens (written parts) = true := by
  obtain ⟨hi, hlower, hupper⟩ := regular
  obtain ⟨hpercentage, hresult, htokens⟩ := resolveLoop_written hi isPlain
  obtain ⟨percent, hpercent⟩ := hpercentage hlower hupper
  have h67 : visit.roundedPercent.toOption = some 67 := by decide +kernel
  rw [hpercent] at h67
  obtain rfl : percent = 67 := Option.some.inj h67
  refine ⟨?_, htokens.2 ⟨"label", by simp [parts]⟩⟩
  rw [hresult _ hpercent]
  decide +kernel

end Questionnaire
