import Questionnaire.Survey.Lookup

/-!
# A brand tracker

A survey that shows what the library can do: a screener that ends the survey for the young, a
battery over the brands that the respondent has heard of, a battery over the rows of a dataset, a
page for teenagers only, and wording that quotes an earlier answer.
-/

namespace Questionnaire.Sample.BrandTracker

/-- A token for a name of the current iteration. -/
def loopToken (name : String) : String := "\x7b\x7bloop." ++ name ++ "\x7d\x7d"

/-- A page shown to everyone, in authored order. -/
def plainPage (id : String) (index : Int) (title : String) : Page where
  id := .text id
  index := .int index
  title := .text title
  visibleIf := none
  questionOrder := .sequential
  groupOrder := .sequential

/-- An ungrouped question shown to everyone, the first of its page, with choices in authored
order. -/
def plainQuestion (id pageId variableName : String) (kind : QuestionKind) (text : String) :
    Question where
  id := .text id
  pageId := .text pageId
  variableName := .text variableName
  kind := kind
  text := .text text
  index := .int 0
  groupId := .null
  choiceOrder := .sequential
  visibleIf := none
  choices := []
  choiceGroups := []
  carryFrom := .null
  carryFilter := .selected
  terminateIf := none

/-- Choices given by their values and labels. -/
def choices (family : String) (offered : List (String × String)) : List Choice :=
  offered.mapIdx fun i c =>
    { id := .text (family ++ "_" ++ c.1), value := .text c.1, label := .text c.2, index := .int i,
      visibleIf := none, groupKey := .null, weight := .null }

/-- A condition without a note. -/
def criterion (id text : String) : Option Criterion := some ⟨.text id, .text text, .null⟩

/-- A row of the store dataset. -/
def store (key label city : String) (isActive : Bool) (sortIndex : Int) : DatasetRow where
  key := .text key
  attributes := .ofTexts (Dict.ofList [("label", .text label), ("city", .text city)])
  active := .bool isActive
  sortIndex := .int sortIndex

/-- The pages. -/
def pages : List Page :=
  [plainPage "p_screen" 0 "About you",
    plainPage "p_brand_rate" 1
      (loopToken "label" ++ " (" ++ loopToken "index" ++ " of " ++ loopToken "total" ++ ")"),
    plainPage "p_brand_buy" 2 ("Buying " ++ loopToken "label"),
    plainPage "p_store_visit" 3 ("Stores: " ++ loopToken "label"),
    plainPage "p_store_rate" 4 ("Rating " ++ loopToken "label"),
    { plainPage "p_teen" 5 "A few more questions" with
      visibleIf := criterion "e_teen" "lessThan(answer('AGE'), 18)" },
    plainPage "p_thanks" 6 "Thank you"]

/-- The questions. -/
def questions : List Question :=
  [plainQuestion "q_age" "p_screen" "AGE" .number "How old are you?",
    { plainQuestion "q_aware" "p_screen" "AWARE" .multipleChoice
        "Which of these brands have you heard of?" with
      index := .int 1
      choiceOrder := .random
      choices := choices "aware" [("nike", "Nike"), ("adidas", "Adidas"), ("puma", "Puma")] },
    plainQuestion "q_rate" "p_brand_rate" "RATE" .rating
      ("How would you rate " ++ loopToken "label" ++ "?"),
    { plainQuestion "q_buy" "p_brand_buy" "BUY" .singleChoice
        ("Have you bought " ++ loopToken "label" ++ " in the last year?") with
      choices := choices "buy" [("yes", "Yes"), ("no", "No")] },
    { plainQuestion "q_visit" "p_store_visit" "VISIT" .singleChoice
        ("How often do you visit our " ++ loopToken "label" ++ " store in " ++
          loopToken "city" ++ "?") with
      choices := choices "visit"
        [("weekly", "Weekly"), ("monthly", "Monthly"), ("rarely", "Rarely")] },
    plainQuestion "q_store_nps" "p_store_rate" "STORE_NPS" .rating
      ("How likely are you to recommend " ++ loopToken "label" ++ " (" ++ loopToken "progress" ++
        "% done)?"),
    { plainQuestion "q_parent" "p_teen" "PARENT" .singleChoice
        "Does a parent or guardian buy your sports clothing?" with
      choices := choices "parent" [("yes", "Yes"), ("no", "No")] },
    plainQuestion "q_comments" "p_thanks" "COMMENTS" .text
      "You told us about $\x7bpipe:question:AWARE:choices\x7d. Anything else to add?"]

/-- The rule that ends the survey for respondents under sixteen. -/
def underage : JumpRule where
  id := .text "j_underage"
  source := .text "q_age"
  destination := .atEnd
  condition := criterion "e_underage" "lessThan(answer('AGE'), 16)"
  priority := .int 1

/-- The battery over the brands that the respondent has heard of. -/
def brands : Battery where
  id := .text "brands"
  name := .text "Brand battery"
  startPageId := .text "p_brand_rate"
  endPageId := .text "p_brand_buy"
  source := .answer
  sourceQuestionId := .text "q_aware"
  maxItems := .null
  randomize := .bool false
  sampleWithoutReplacement := .bool true
  rows := []

/-- The battery over the stores, with a limit. -/
def stores (limit : Value) : Battery where
  id := .text "stores"
  name := .text "Store battery"
  startPageId := .text "p_store_visit"
  endPageId := .text "p_store_rate"
  source := .dataset
  sourceQuestionId := .null
  maxItems := limit
  randomize := .bool false
  sampleWithoutReplacement := .bool true
  rows :=
    [store "oxford_st" "Oxford Street" "London" true 0,
      store "rivoli" "Rue de Rivoli" "Paris" true 1,
      store "kudamm" "Kurfuerstendamm" "Berlin" true 2,
      store "corso" "Via del Corso" "Rome" false 3]

/-- The survey, with a limit on the number of stores. -/
def survey (storeLimit : Value) : Survey where
  id := .text "brand_tracker"
  name := .text "Brand Tracker"
  pages := pages
  groups := []
  questions := questions
  jumpRules := [underage]
  pageJumpRules := []
  batteries := [brands, stores storeLimit]
  metadata := .ofEntries [("owner", .text "insights"), ("wave", .text "2024Q4")]

end Questionnaire.Sample.BrandTracker
