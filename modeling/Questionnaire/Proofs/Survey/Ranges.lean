import Questionnaire.Proofs.Route.Jumps
import Questionnaire.Proofs.Route.Trail

/-!
# Batteries in the audit and in the role table

The audit and the role table go through the batteries of a survey on their own, and each keeps its
own account of the pages that batteries before have taken. They agree on every battery: the error
about its range is told by the verdict of the role table (`Audit.batteryFindings_eq`), so a battery
is left out exactly if the audit has an error about its range. A survey without errors has all its
batteries, each with its roles, and then a jump rule is warned of exactly if it leads to a page
behind the first one of a battery (`Survey.audit_agrees_with_roles`).
-/

namespace Questionnaire

namespace RoleTable

/-- The batteries of a list, each with the table of those accepted before it. -/
def steps (s : Survey) : RoleTable → List Battery → List (RoleTable × Battery)
  | _, [] => []
  | t, b :: r => (t, b) :: steps s (t.add s b) r

end RoleTable

namespace Audit

/-- The error about the range of a battery, if the table of the batteries accepted before it has no
place for it. -/
def rangeError? (s : Survey) (t : RoleTable) (b : Battery) : Option String :=
  match t.verdict s b with
  | .accepted _ => none
  | .invalid =>
    match s.page? b.startPageId, s.page? b.endPageId with
    | some start, some finish =>
      some ("Loop battery " ++ b.id.display ++ " start page " ++ start.id.display ++
        " must come before end page " ++ finish.id.display)
    | _, _ => some ("Loop battery " ++ b.id.display ++ " references a missing page")
  | .taken ids => ids.findSome? fun id => (t.ownerOf? id).map fun owner =>
    "Loop batteries " ++ owner.1.id.display ++ " and " ++ b.id.display ++ " overlap on page " ++
      id.display

/-- The batteries of a table with their pages, as the audit keeps account of them. -/
def claims (t : RoleTable) : List (Id × List Id) :=
  t.stretches.map fun st => (st.battery.id, st.pageIds)

section
variable {s : Survey} {t : RoleTable} {b : Battery}

theorem findSome?_filter {α β : Type} (f : α → Option β) (l : List α) :
    (l.filter fun a => (f a).isSome).findSome? f = l.findSome? f := by
  induction l with
  | nil => rfl
  | cons a l ih => cases h : f a <;> simp [h, ih]

theorem claimed_eq (t : RoleTable) (id : Id) :
    ((claims t).find? fun c => id.isAmong c.2).map (fun c => (c.1, id)) =
      (t.ownerOf? id).map fun owner => (owner.1.id, id) := by
  rw [claims, List.find?_map, RoleTable.ownerOf?]
  simp [Function.comp_def]

/-- The audit of a battery, next to the batteries that the role table has accepted before it. -/
theorem batteryFindings_cons (s : Survey) (t : RoleTable) (b : Battery) (r : List Battery) :
    batteryFindings s (claims t) (b :: r) =
      (rangeError? s t b).toList.map .error ++
        ((s.batteryPages? b).map (sourceFindings s b)).getD [] ++
          batteryFindings s (claims (t.add s b)) r := by
  rw [batteryFindings]
  simp only [claimed_eq, rangeError?, RoleTable.add, RoleTable.verdict, Survey.batteryPages?,
    pagesOf]
  cases s.page? b.startPageId with
  | none => rfl
  | some start =>
    cases s.page? b.endPageId with
    | none => rfl
    | some finish =>
      dsimp only
      cases start.isBefore finish with
      | false => rfl
      | true =>
        simp only [if_true]
        -- What is taken first decides, in both.
        have hfirst := findSome?_filter (fun id => (t.ownerOf? id).map fun owner =>
          (owner.1.id, id)) ((s.pagesBetween start finish).map Page.id)
        simp only [Option.isSome_map] at hfirst
        cases htaken : ((s.pagesBetween start finish).map Page.id).filter fun id =>
            (t.ownerOf? id).isSome with
        | nil =>
          rw [htaken] at hfirst
          rw [← hfirst]
          simp [claims]
        | cons id ids =>
          have hmem : id ∈ ((s.pagesBetween start finish).map Page.id).filter fun id =>
              (t.ownerOf? id).isSome := htaken ▸ List.mem_cons_self
          obtain ⟨owner, howner⟩ := Option.isSome_iff_exists.1 (List.mem_filter.1 hmem).2
          rw [htaken] at hfirst
          rw [← hfirst]
          simp [howner]

/-- What the audit finds about batteries, battery by battery: the error about its range that the
role table's verdict tells, and what is found about its source. -/
theorem batteryFindings_eq (s : Survey) : ∀ (l : List Battery) (t : RoleTable),
    batteryFindings s (claims t) l = (RoleTable.steps s t l).flatMap fun step =>
      (rangeError? s step.1 step.2).toList.map .error ++
        ((s.batteryPages? step.2).map (sourceFindings s step.2)).getD []
  | [], _ => rfl
  | b :: r, t => by
    rw [batteryFindings_cons, batteryFindings_eq s r (t.add s b)]
    rfl

/-- A battery without an error about its range is accepted with its pages, and any other is left
out. -/
theorem rangeError?_cases (s : Survey) (t : RoleTable) (b : Battery) :
    rangeError? s t b = none ∧
        (∃ ids, s.batteryPages? b = some ids ∧ t.add s b = ⟨t.stretches ++ [⟨b, ids⟩]⟩) ∨
      (rangeError? s t b).isSome = true ∧ t.add s b = t := by
  unfold rangeError? RoleTable.add RoleTable.verdict
  cases s.batteryPages? b with
  | none =>
    refine .inr ⟨?_, rfl⟩
    dsimp only
    split <;> rfl
  | some ids =>
    cases htaken : ids.filter fun id => (t.ownerOf? id).isSome with
    | nil => exact .inl ⟨by simp [htaken], ids, rfl, by simp [htaken]⟩
    | cons id taken =>
      have hmem : id ∈ ids.filter fun id => (t.ownerOf? id).isSome := htaken ▸ List.mem_cons_self
      obtain ⟨owner, howner⟩ := Option.isSome_iff_exists.1 (List.mem_filter.1 hmem).2
      exact .inr ⟨by simp [htaken, howner], by simp [htaken]⟩

end

end Audit

namespace RoleTable

variable {survey : Survey}

/-- The batteries that are accepted are those without an error about their range. -/
theorem map_battery_addAll : ∀ (l : List Battery) (t : RoleTable),
    (addAll survey t l).1.stretches.map Stretch.battery = t.stretches.map Stretch.battery ++
      ((steps survey t l).filter fun step =>
        (Audit.rangeError? survey step.1 step.2).isNone).map Prod.snd
  | [], t => by simp [addAll, steps]
  | b :: r, t => by
    rw [addAll, steps, map_battery_addAll r (t.add survey b)]
    rcases Audit.rangeError?_cases survey t b with ⟨hnone, ids, -, hadd⟩ | ⟨hsome, hadd⟩
    · rw [hadd, List.filter_cons_of_pos (by simp [hnone])]
      simp
    · rw [hadd, List.filter_cons_of_neg (by simp [Option.isSome_iff_ne_none.1 hsome])]

theorem map_snd_steps : ∀ (l : List Battery) (t : RoleTable),
    (steps survey t l).map Prod.snd = l
  | [], _ => rfl
  | b :: r, t => congrArg (b :: ·) (map_snd_steps r (t.add survey b))

end RoleTable

namespace Survey

variable {survey : Survey}

/-- The batteries of a survey, each with the table of those accepted before it. -/
def steps (survey : Survey) : List (RoleTable × Battery) :=
  RoleTable.steps survey ⟨[]⟩ survey.batteries

theorem batteries_ofSurvey (survey : Survey) :
    (RoleTable.ofSurvey survey).1.stretches.map Stretch.battery =
      (survey.steps.filter fun step => (Audit.rangeError? survey step.1 step.2).isNone).map
        Prod.snd :=
  RoleTable.map_battery_addAll survey.batteries ⟨[]⟩

/-- An error about the range of a battery is an error of the audit. -/
theorem mem_errors_of_rangeError? {step : RoleTable × Battery} (hstep : step ∈ survey.steps)
    {message : String} (h : Audit.rangeError? survey step.1 step.2 = some message) :
    message ∈ survey.audit.errors := by
  have hfound : .error message ∈ Audit.batteryFindings survey (Audit.claims ⟨[]⟩)
      survey.batteries := by
    rw [Audit.batteryFindings_eq]
    refine List.mem_flatMap.2 ⟨step, hstep, List.mem_append_left _ ?_⟩
    rw [h]
    exact .head _
  exact mem_errors_iff.2 (List.mem_append_right _ hfound)

/-- A battery is left out exactly if there is an error about a range. -/
theorem left_out_iff : (RoleTable.ofSurvey survey).1.stretches.length < survey.batteries.length ↔
    ∃ step ∈ survey.steps, ∃ message ∈ survey.audit.errors,
      Audit.rangeError? survey step.1 step.2 = some message := by
  have haccepted := congrArg List.length survey.batteries_ofSurvey
  have hall : (survey.steps.map Prod.snd).length = survey.batteries.length :=
    congrArg List.length (RoleTable.map_snd_steps survey.batteries ⟨[]⟩)
  simp only [List.length_map] at haccepted hall
  rw [haccepted, ← hall]
  show _ < survey.steps.length ↔ _
  rw [List.length_filter_lt_length_iff_exists]
  constructor
  · rintro ⟨step, hstep, hsome⟩
    obtain ⟨message, hmessage⟩ := Option.ne_none_iff_exists'.1 (by simpa using hsome)
    exact ⟨step, hstep, message, mem_errors_of_rangeError? hstep hmessage, hmessage⟩
  · rintro ⟨step, hstep, message, -, hmessage⟩
    exact ⟨step, hstep, by simp [hmessage]⟩

/-! ## Surveys without errors -/

/-- A survey without errors has all its batteries. -/
theorem exists_stretch (h : survey.audit.errors = []) {b : Battery} (hb : b ∈ survey.batteries) :
    ∃ st ∈ (RoleTable.ofSurvey survey).1.stretches, st.battery = b := by
  have hall : (RoleTable.ofSurvey survey).1.stretches.map Stretch.battery = survey.batteries := by
    rw [batteries_ofSurvey, List.filter_eq_self.2 fun step hstep => ?_]
    · exact RoleTable.map_snd_steps survey.batteries ⟨[]⟩
    · rw [Option.isNone_iff_eq_none, Option.eq_none_iff_forall_ne_some]
      intro message hmessage
      have herror := mem_errors_of_rangeError? hstep hmessage
      rw [h] at herror
      cases herror
  exact List.mem_map.1 (hall ▸ hb)

/-- The roles of the pages of a battery: it starts on the first one, ends on the last one, and the
pages between them are its interior. -/
structure HasRoles (survey : Survey) (b : Battery) : Prop where
  start : (RoleTable.ofSurvey survey).1.roleOf? b.startPageId = some (b, .start)
  finish : (RoleTable.ofSurvey survey).1.roleOf? b.endPageId = some (b, .finish)
  interior : ∀ ids, survey.batteryPages? b = some ids → ∀ id ∈ ids,
    id ≠ b.startPageId → id ≠ b.endPageId →
      (RoleTable.ofSurvey survey).1.roleOf? id = some (b, .interior)

theorem roleOf?_of_mem {st : Stretch} (hst : st ∈ (RoleTable.ofSurvey survey).1.stretches)
    {id : Id} (htext : id.isText = true) (hid : id ∈ st.pageIds) :
    (RoleTable.ofSurvey survey).1.roleOf? id = some (st.battery,
      if id = st.battery.startPageId then .start
      else if id = st.battery.endPageId then .finish else .interior) := by
  have hagrees : ∀ other : Id, id.agrees other = true ↔ id = other :=
    fun other => ⟨Value.eq_of_agrees htext, fun he => he ▸ Value.agrees_self id⟩
  have hrole := RoleTable.ownerOf?_of_mem (RoleTable.pairwise_ofSurvey survey) hst
    ((Value.isAmong_iff_mem_of_isText htext).2 hid)
  rw [RoleTable.roleOf?, Value.given?_of_isText htext, Option.bind_some, hrole, Stretch.roleOf]
  simp only [hagrees]

/-- The batteries of a survey without errors have their roles. -/
theorem hasRoles (htyped : survey.Typed) (h : survey.audit.errors = []) {b : Battery}
    (hb : b ∈ survey.batteries) : survey.HasRoles b := by
  obtain ⟨st, hst, rfl⟩ := exists_stretch h hb
  have hpages := (RoleTable.mem_batteries_of_mem_stretches hst).2
  obtain ⟨start, finish, hstart, hfinish, hlt, hids⟩ :=
    htyped.pagesTyped.batteryPages?_eq_some_iff.1 hpages
  obtain ⟨hS, hSid⟩ := htyped.pagesTyped.of_page? hstart
  obtain ⟨hF, hFid⟩ := htyped.pagesTyped.of_page? hfinish
  have hmem : ∀ p ∈ survey.pages, start.rank ≤ p.rank → p.rank ≤ finish.rank →
      p.id ∈ st.pageIds := by
    intro p hp hle hle'
    rw [hids]
    exact List.mem_map_of_mem (List.mem_filter.2 ⟨mem_pagesInOrder.2 hp, by simp [hle, hle']⟩)
  refine ⟨?_, ?_, fun ids hids' id hid hnestart hnefinish => ?_⟩
  · have hin := hmem start hS (Int.le_refl _) (Int.le_of_lt hlt)
    rw [← hSid, roleOf?_of_mem hst (htyped.pageId start hS) hin, if_pos hSid]
  · have hne : finish.id ≠ st.battery.startPageId := by
      intro he
      rw [← hFid, he, hstart] at hfinish
      cases hfinish
      exact Int.lt_irrefl _ hlt
    have hin := hmem finish hF (Int.le_of_lt hlt) (Int.le_refl _)
    rw [← hFid, roleOf?_of_mem hst (htyped.pageId finish hF) hin, if_neg hne, if_pos hFid]
  · cases hpages.symm.trans hids'
    obtain ⟨p, hp, rfl⟩ := Survey.exists_page_of_batteryPages? hpages hid
    rw [roleOf?_of_mem hst (htyped.pageId p (mem_pagesInOrder.1 hp)) hid, if_neg hnestart,
      if_neg hnefinish]

/-! ## Rules that lead behind the first page of a battery -/

/-- The pages behind the first one of a battery are all its pages but that one. -/
theorem mem_drop_one_iff (htyped : survey.Typed) (hL : InOrder survey.pagesInOrder) {b : Battery}
    {ids : List Id} (h : survey.batteryPages? b = some ids) {id : Id} :
    id ∈ ids.drop 1 ↔ id ∈ ids ∧ id ≠ b.startPageId := by
  obtain ⟨start, finish, hstart, hfinish, hlt, rfl⟩ :=
    htyped.pagesTyped.batteryPages?_eq_some_iff.1 h
  obtain ⟨hS, hSid⟩ := htyped.pagesTyped.of_page? hstart
  have hF := (htyped.pagesTyped.of_page? hfinish).1
  obtain ⟨before, inner, after, hsplit⟩ :=
    hL.exists_between (mem_pagesInOrder.2 hS) (mem_pagesInOrder.2 hF) hlt
  rw [hsplit] at hL ⊢
  have hinner : ∀ q ∈ inner ++ [finish], q.id ≠ start.id := by
    intro q hq he
    have hq : q ∈ inner ++ finish :: after := by
      rcases List.mem_append.1 hq with hq | hq
      · exact List.mem_append_left _ hq
      · exact List.mem_append_right _ (List.mem_singleton.1 hq ▸ .head _)
    have hlater := hL.later q hq
    obtain rfl := hL.eq_of_id (List.mem_append_right _ (.tail _ hq)) (by simp) he
    exact Int.lt_irrefl _ hlater
  rw [hL.filter_between, List.map_cons, List.drop_succ_cons, List.drop_zero, List.mem_cons, ← hSid]
  constructor
  · intro hid
    obtain ⟨q, hq, rfl⟩ := List.mem_map.1 hid
    exact ⟨.inr hid, hinner q hq⟩
  · exact fun ⟨hid, hne⟩ => hid.resolve_left hne

theorem pagesOf_eq {b : Battery} {ids : List Id} (h : survey.batteryPages? b = some ids) :
    Audit.pagesOf survey b = ids := by
  obtain ⟨start, finish, hstart, hfinish, -, rfl⟩ := batteryPages?_eq_some_iff.1 h
  rw [Audit.pagesOf, hstart, hfinish]

theorem enclosing?_isSome_iff (htyped : survey.Typed) (hL : InOrder survey.pagesInOrder)
    (h : survey.audit.errors = []) {id : Id} (htext : id.isText = true) :
    (Audit.enclosing? survey id).isSome = true ↔
      ∃ b role, (RoleTable.ofSurvey survey).1.roleOf? id = some (b, role) ∧ role ≠ .start := by
  rw [Audit.enclosing?, List.find?_isSome]
  constructor
  · rintro ⟨b, hb, hinside⟩
    obtain ⟨st, hst, rfl⟩ := exists_stretch h hb
    have hpages := (RoleTable.mem_batteries_of_mem_stretches hst).2
    rw [pagesOf_eq hpages, Value.isAmong_iff_mem_of_isText htext,
      mem_drop_one_iff htyped hL hpages] at hinside
    refine ⟨_, _, roleOf?_of_mem hst htext hinside.1, ?_⟩
    rw [if_neg hinside.2]
    split <;> decide
  · rintro ⟨b, role, hrole, hne⟩
    rw [RoleTable.roleOf?, Value.given?_of_isText htext, Option.bind_some] at hrole
    obtain ⟨st, hst, rfl, hin, rfl⟩ := RoleTable.exists_of_ownerOf? hrole
    obtain ⟨hb, hpages⟩ := RoleTable.mem_batteries_of_mem_stretches hst
    refine ⟨st.battery, hb, ?_⟩
    rw [pagesOf_eq hpages, Value.isAmong_iff_mem_of_isText htext,
      mem_drop_one_iff htyped hL hpages]
    refine ⟨(Value.isAmong_iff_mem_of_isText htext).1 hin, ?_⟩
    rintro rfl
    exact hne (if_pos (Value.agrees_self _))

/-- Without errors, a rule is warned of exactly if it leads to a page that is inside of a battery or
ends one. -/
theorem warned_iff (htyped : survey.Typed) (hids : (survey.pages.map Page.id).Nodup)
    (h : survey.audit.errors = []) {rule : JumpRule}
    (hrule : rule ∈ survey.jumpRules ++ survey.pageJumpRules) :
    (∃ message ∈ survey.audit.warnings, .warning message ∈ Audit.destinationFindings survey rule) ↔
      ∃ id b role, survey.destinationPage? rule.destination = some id ∧
        (RoleTable.ofSurvey survey).1.roleOf? id = some (b, role) ∧ role ≠ .start := by
  have hlisted : ∀ f ∈ Audit.destinationFindings survey rule, f ∈ Audit.findings survey := by
    intro f hf
    simp only [Audit.findings, Audit.jumpFindings, List.mem_append]
    exact .inl (.inr (.inr (List.mem_flatMap.2 ⟨rule, hrule, hf⟩)))
  have hindexes := nodup_pageIndexes (validate_eq_ok_iff.2 ⟨errors_eq_nil_iff.1 h, rfl⟩)
  have hL := inOrder htyped hids hindexes
  have hwarned : (∃ message ∈ survey.audit.warnings,
      .warning message ∈ Audit.destinationFindings survey rule) ↔
        ∃ message, .warning message ∈ Audit.destinationFindings survey rule :=
    exists_congr fun message => and_iff_right_of_imp fun hf => mem_warnings_iff.2 (hlisted _ hf)
  rw [hwarned]
  cases hd : survey.destinationPage? rule.destination with
  | none =>
    refine iff_of_false ?_ ?_
    · rintro ⟨message, hf⟩
      unfold Audit.destinationFindings at hf
      rw [hd] at hf
      split at hf
      · cases hf
      · cases List.mem_singleton.1 hf
    · rintro ⟨id, b, role, hnone, -⟩
      cases hnone
  | some id =>
    have hnotEnd : rule.destination.isEnd = false := by
      refine Bool.eq_false_iff.2 fun hend => ?_
      have hkind : rule.destination.kind = .finish := by simpa [Destination.isEnd] using hend
      rw [destinationPage?, hkind] at hd
      cases hd
    obtain ⟨p, hp, hid⟩ := List.mem_map.1 (Jump.destinationPage?_mem htyped hd)
    have htext : id.isText = true := hid ▸ htyped.pageId p hp
    have hinside := enclosing?_isSome_iff htyped hL h htext
    unfold Audit.destinationFindings
    rw [hd, hnotEnd]
    cases henclosing : Audit.enclosing? survey id with
    | none => simp_all
    | some b => simp_all

/-- The audit and the role table agree on batteries: what is found about them is told battery by
battery by the table's verdict, the table has those without an error about their range, and one is
left out exactly if there is such an error. Without errors all batteries have their roles, and a
rule is warned of exactly if it leads to a page that is inside of a battery or ends one. -/
theorem audit_agrees_with_roles (survey : Survey) :
    (Audit.batteryFindings survey [] survey.batteries = survey.steps.flatMap fun step =>
      (Audit.rangeError? survey step.1 step.2).toList.map .error ++
        ((survey.batteryPages? step.2).map (Audit.sourceFindings survey step.2)).getD []) ∧
    (RoleTable.ofSurvey survey).1.stretches.map Stretch.battery =
      (survey.steps.filter fun step => (Audit.rangeError? survey step.1 step.2).isNone).map
        Prod.snd ∧
    ((RoleTable.ofSurvey survey).1.stretches.length < survey.batteries.length ↔
      ∃ step ∈ survey.steps, ∃ message ∈ survey.audit.errors,
        Audit.rangeError? survey step.1 step.2 = some message) ∧
    (survey.Typed → survey.audit.errors = [] → ∀ b ∈ survey.batteries, survey.HasRoles b) ∧
    (survey.Typed → (survey.pages.map Page.id).Nodup → survey.audit.errors = [] →
      ∀ rule ∈ survey.jumpRules ++ survey.pageJumpRules,
        (∃ message ∈ survey.audit.warnings,
          .warning message ∈ Audit.destinationFindings survey rule) ↔
        ∃ id b role, survey.destinationPage? rule.destination = some id ∧
          (RoleTable.ofSurvey survey).1.roleOf? id = some (b, role) ∧ role ≠ .start) :=
  ⟨Audit.batteryFindings_eq survey survey.batteries ⟨[]⟩, batteries_ofSurvey survey, left_out_iff,
    fun htyped h _ hb => hasRoles htyped h hb,
    fun htyped hids h _ hrule => warned_iff htyped hids h hrule⟩

end Survey

namespace Sample.BrandTracker

/-- A rule that takes the young to the second page of the battery over the brands. -/
def skipping : JumpRule := { underage with destination := ⟨.page, .text "p_brand_buy"⟩ }

/-- The survey with that rule. -/
def skippingSurvey : Survey := { survey (.int 2) with jumpRules := [skipping] }

theorem typed_skipping : skippingSurvey.Typed where
  pageId := typed.pageId
  pageIndex := typed.pageIndex
  questionId := typed.questionId
  choiceValue := typed.choiceValue
  batteryId := typed.batteryId
  maxItems := typed.maxItems
  rowKey := typed.rowKey
  rowIndex := typed.rowIndex

theorem findings_warn_skipping :
    ∀ f ∈ Audit.findings skippingSurvey, f.error? = none := by
  have horder : skippingSurvey.pagesInOrder = pages := pagesInOrder
  have hbrands : Audit.pagesOf skippingSurvey brands =
      [.text "p_brand_rate", .text "p_brand_buy"] := by
    simp only [Audit.pagesOf, Survey.pagesBetween, horder]
    decide +kernel
  have hstores : Audit.pagesOf skippingSurvey (stores (.int 2)) =
      [.text "p_store_visit", .text "p_store_rate"] := by
    simp only [Audit.pagesOf, Survey.pagesBetween, horder]
    decide +kernel
  have hbatteries : skippingSurvey.batteries = [brands, stores (.int 2)] := rfl
  have hrules : skippingSurvey.jumpRules ++ skippingSurvey.pageJumpRules = [skipping] := rfl
  simp only [Audit.findings, Audit.jumpFindings, hrules, List.flatMap_cons, List.flatMap_nil,
    Audit.destinationFindings, Audit.enclosing?, hbatteries, Audit.batteryFindings, List.find?,
    hbrands, hstores]
  decide +kernel

end Sample.BrandTracker

open Sample BrandTracker in
/-- All batteries have their roles, and the rule is warned of. -/
theorem Survey.audit_agrees_with_roles_skipping :
    skippingSurvey.Typed ∧ (skippingSurvey.pages.map Page.id).Nodup ∧
      skippingSurvey.audit.errors = [] ∧ skippingSurvey.HasRoles brands ∧
        ∃ message ∈ skippingSurvey.audit.warnings,
          .warning message ∈ Audit.destinationFindings skippingSurvey skipping := by
  have hids : (skippingSurvey.pages.map Page.id).Nodup := distinct.pageIds
  have herrors := errors_eq_nil_iff.2 findings_warn_skipping
  obtain ⟨-, -, -, hroles, hwarned⟩ := audit_agrees_with_roles skippingSurvey
  have hbrands := hroles typed_skipping herrors brands (.head _)
  have hbuy : skippingSurvey.destinationPage? skipping.destination = some (.text "p_brand_buy") :=
    by decide +kernel
  exact ⟨typed_skipping, hids, herrors, hbrands,
    (hwarned typed_skipping hids herrors skipping (.head _)).2
      ⟨.text "p_brand_buy", brands, .finish, hbuy, hbrands.finish, by decide⟩⟩

end Questionnaire
