import GenSubnet.Library.Dict
import GenSubnet.Library.PythonUrl
import Mathlib.Data.Finset.Image

/-!
# The ids of prompts

The collector and the gateway take the id of a prompt from the decoded path of its URL, the judge
from the URL as it is written. They agree on a URL whose query has no dot, and whose file name has no
escape before its last dot.
-/

namespace GenSubnet.Competition
open Library Url

/-- `ResultCollector.collect`: the id under which a result is stored. -/
def collectorId (url : String) : String :=
  String.ofList (stem (pathName (unquote (urlsplit url.toList).path)))

/-- `RoundController._resolve`: the id that is pinned. -/
def gatewayId (url : String) : String :=
  String.ofList (stemSince314 (pathName (unquote (urlsplit url.toList).path)))

/-- `RoundRunner.run` and `run_match`: the id that is looked up. -/
def judgeId (url : String) : String := String.ofList (stem (pathName url.toList))

/-! ## What the services accept -/

/-- The text after the last occurrence of a character, or all of it. -/
def afterLast (c : Char) (text : List Char) : List Char :=
  (text.reverse.takeWhile (· ≠ c)).reverse

def hostname (netloc : List Char) : List Char :=
  let host := afterLast '@' netloc
  if '[' ∈ host then (cut ']' (cut '[' host).2).1 else (cut ':' host).1

def username (netloc : List Char) : List Char :=
  if '@' ∈ netloc then
    (cut ':' (((netloc.reverse.dropWhile (· ≠ '@')).drop 1).reverse)).1
  else []

/-- `_image_url` does not raise. -/
def HasImageUrl (url : String) : Prop :=
  if (urlsplit url.toList).scheme = [] ∧ (urlsplit url.toList).netloc = [] then
    url.toList.head? ≠ some '/' ∧ ∀ part ∈ segments url.toList, part ≠ ['.'] ∧ part ≠ ['.', '.']
  else
    (urlsplit url.toList).scheme = "https".toList ∧ hostname (urlsplit url.toList).netloc ≠ [] ∧
      username (urlsplit url.toList).netloc = [] ∧ (urlsplit url.toList).fragment = []

instance (url : String) : Decidable (HasImageUrl url) :=
  inferInstanceAs (Decidable (if _ ∧ _ then _ ∧ ∀ part ∈ segments url.toList, _ else _ ∧ _ ∧ _ ∧ _))

/-- The pattern of `PromptImage.id`. -/
def ValidPromptId (id : String) : Prop :=
  (∃ c ∈ id.toList.head?, c.isAlphanum = true) ∧ id.toList.length ≤ 255 ∧
    ∀ c ∈ id.toList, c.isAlphanum = true ∨ c = '_' ∨ c = '.' ∨ c = '-'

instance (id : String) : Decidable (ValidPromptId id) :=
  @instDecidableAnd _ _ (Option.decidableExistsMem _)
    (@instDecidableAnd _ _ inferInstance (List.decidableBAll _ id.toList))

def Accepted (url : String) : Prop := HasImageUrl url ∧ ValidPromptId (gatewayId url)

instance (url : String) : Decidable (Accepted url) := inferInstanceAs (Decidable (_ ∧ _))

/-! ## Collected and judged results -/

variable {α : Type}

/-- `_collect_miner`: the results of the prompts, from the index of the miner. -/
def collected (saved : Dict String α) (absent : α) (prompts : List String) : Dict String α :=
  prompts.foldl (fun generations prompt =>
    generations.set (collectorId prompt) ((saved.get (collectorId prompt)).getD absent)) .empty

/-- The result of a prompt that `run_match` judges. -/
def judged (generations : Dict String α) (default : α) (prompt : String) : α :=
  (generations.get (judgeId prompt)).getD default

/-- The baseline has just the results that the judge waits for. -/
def BaselineMatches (baseline : Dict String α) (prompts : List String) : Prop :=
  prompts ≠ [] ∧ baseline.keys.toFinset = (prompts.map judgeId).toFinset

/-! ## Agreement -/

structure SameId (url : String) : Prop where
  gateway : gatewayId url = collectorId url
  judge : judgeId url = collectorId url

/-- The file name in the path of a URL. -/
def fileName (url : String) : List Char := (segments (urlsplit url.toList).path).getLastD []

/-- A text before its last dot. -/
def beforeDot (name : List Char) : List Char :=
  match splitDot name with
  | some (before, _) => before
  | none => name

/-- A text after its last dot. -/
def afterDot (name : List Char) : List Char :=
  match splitDot name with
  | some (_, after) => after
  | none => name

/-- The URL has a file name in its path, that neither begins nor ends with a dot, and in which no
escape stands for a slash or for a later dot; nothing in it is ignored, and its query has no slash. -/
structure Ordinary (url : String) : Prop where
  asWritten : clean url.toList = url.toList
  query : '/' ∉ trailer url.toList
  first : ∃ c ∈ (fileName url).head?, c ≠ '.'
  last : ∃ c ∈ (fileName url).getLast?, c ≠ '.'
  slash : '/' ∉ unquote (fileName url)
  dot : '.' ∉ unquote (afterDot (fileName url))

/-- The URL shows its id: no escape before the last dot of the file name, and no query, or one without
a dot after a file name with one. -/
structure ShowsId (url : String) : Prop where
  query : trailer url.toList = [] ∨ '.' ∈ fileName url ∧ '.' ∉ trailer url.toList
  escapes : hasEscape (beforeDot (fileName url)) = false

theorem path_cases (url : String) : '/' ∉ fileName url ∧
    ((urlsplit url.toList).path = fileName url ∨
      ∃ x, (urlsplit url.toList).path = x ++ '/' :: fileName url) :=
  exists_last_segment (urlsplit url.toList).path

theorem Ordinary.fileName_ne_nil {url : String} (ordinary : Ordinary url) : fileName url ≠ [] := by
  obtain ⟨c, is, -⟩ := ordinary.first
  intro empty
  rw [empty] at is
  cases is

theorem Ordinary.cases {url : String} (ordinary : Ordinary url) :
    (∃ before after, fileName url = before ++ '.' :: after ∧ '.' ∉ after ∧ '.' ∉ unquote after ∧
      (∃ c ∈ before.head?, c ≠ '.') ∧ after ≠ [] ∧ beforeDot (fileName url) = before) ∨
    '.' ∉ fileName url ∧ '.' ∉ unquote (fileName url) ∧
      beforeDot (fileName url) = fileName url := by
  by_cases dotted : '.' ∈ fileName url
  · left
    obtain ⟨before, after, is, none⟩ := exists_last dotted
    have split := splitDot_append none before
    rw [← is] at split
    have dot := ordinary.dot
    rw [afterDot, split] at dot
    refine ⟨before, after, is, none, dot, ?_, ?_, by rw [beforeDot, split]⟩
    · obtain ⟨c, first, ne⟩ := ordinary.first
      rw [is] at first
      cases before with
      | nil =>
          obtain rfl := Option.some.inj first
          exact absurd rfl ne
      | cons d before => exact ⟨c, first, ne⟩
    · rintro rfl
      obtain ⟨c, last, ne⟩ := ordinary.last
      rw [is, List.getLast?_concat] at last
      exact ne (Option.some.inj last).symm
  · right
    have split := splitDot_eq_none.mpr dotted
    have dot := ordinary.dot
    rw [afterDot, split] at dot
    exact ⟨dotted, dot, by rw [beforeDot, split]⟩

theorem ne_nil_of_head {text : List Char} (first : ∃ c ∈ text.head?, c ≠ '.') : text ≠ [] := by
  rintro rfl
  obtain ⟨c, is, -⟩ := first
  cases is

theorem append_ne_dot {text : List Char} (first : ∃ c ∈ text.head?, c ≠ '.') (rest : List Char) :
    text ++ rest ≠ ['.'] := by
  obtain ⟨c, is, ne⟩ := first
  intro dot
  cases text with
  | nil => cases is
  | cons d text =>
      obtain rfl := Option.some.inj is
      exact ne (List.cons.inj dot).1

theorem Ordinary.unquote_ne_dot {url : String} (ordinary : Ordinary url) :
    unquote (fileName url) ≠ ['.'] := by
  intro dot
  rcases ordinary.cases with ⟨before, after, is, -, -, first, -⟩ | ⟨-, none, -⟩
  · rw [is, unquote_append separator_dot] at dot
    have nonempty := unquote_ne_nil (ne_nil_of_head first)
    rw [List.append_eq_singleton_iff] at dot
    rcases dot with ⟨empty, -⟩ | ⟨-, empty⟩
    · exact nonempty empty
    · cases empty
  · rw [dot] at none
    exact none List.mem_cons_self

theorem url_eq {url : String} (accepted : HasImageUrl url) (ordinary : Ordinary url) :
    url.toList = fileName url ++ trailer url.toList ∨
      ∃ x, url.toList = x ++ '/' :: (fileName url ++ trailer url.toList) := by
  obtain ⟨noSlash, path | ⟨x, path⟩⟩ := path_cases url
  · left
    unfold HasImageUrl at accepted
    split at accepted
    · rename_i relative
      have whole := eq_path_of_relative ordinary.asWritten relative.1 accepted.1
      rw [path] at whole
      exact whole
    · have host : (urlsplit url.toList).netloc ≠ [] := by
        intro none
        rw [none] at accepted
        exact accepted.2.1 rfl
      exfalso
      rcases path_of_host host with none | slash
      · rw [none] at path
        exact ordinary.fileName_ne_nil (by rw [fileName, none]; rfl)
      · rw [path] at slash
        exact noSlash (List.mem_of_mem_head? slash)
  · right
    obtain ⟨before, whole⟩ := eq_append_path ordinary.asWritten
    refine ⟨before ++ x, ?_⟩
    rw [path] at whole
    rw [List.append_assoc]
    exact whole.trans (by rw [List.append_assoc]; rfl)

theorem names_of_ordinary {url : String} (accepted : HasImageUrl url) (ordinary : Ordinary url) :
    pathName (unquote (urlsplit url.toList).path) = unquote (fileName url) ∧
      pathName url.toList = fileName url ++ trailer url.toList := by
  have nonempty := ordinary.fileName_ne_nil
  obtain ⟨noSlash, path⟩ := path_cases url
  constructor
  · have decoded := unquote_ne_nil nonempty
    rcases path with path | ⟨x, path⟩
    · rw [path]
      exact pathName_of_not_mem ordinary.slash decoded ordinary.unquote_ne_dot
    · rw [path, unquote_append separator_slash]
      exact pathName_append ordinary.slash decoded ordinary.unquote_ne_dot _
  · have noSlash : '/' ∉ fileName url ++ trailer url.toList := by
      rw [List.mem_append, not_or]
      exact ⟨noSlash, ordinary.query⟩
    have hasName : fileName url ++ trailer url.toList ≠ [] :=
      List.append_ne_nil_of_left_ne_nil nonempty _
    have notDot := append_ne_dot ordinary.first (trailer url.toList)
    rcases url_eq accepted ordinary with whole | ⟨x, whole⟩
    · exact (congrArg pathName whole).trans (pathName_of_not_mem noSlash hasName notDot)
    · exact (congrArg pathName whole).trans (pathName_append noSlash hasName notDot x)

theorem stem_query {url : String} (ordinary : Ordinary url)
    (query : trailer url.toList = [] ∨ '.' ∈ fileName url ∧ '.' ∉ trailer url.toList) :
    stem (fileName url ++ trailer url.toList) = beforeDot (fileName url) := by
  rcases ordinary.cases with ⟨before, after, is, none, -, first, hasAfter, base⟩ | ⟨none, -, base⟩
  · have noDot : '.' ∉ after ++ trailer url.toList := by
      rw [List.mem_append, not_or]
      refine ⟨none, ?_⟩
      rcases query with empty | ⟨-, noDot⟩
      · rw [empty]
        exact List.not_mem_nil
      · exact noDot
    rw [base, is, List.append_assoc, List.cons_append]
    exact stem_append noDot (ne_nil_of_head first) (List.append_ne_nil_of_left_ne_nil hasAfter _)
  · rcases query with empty | ⟨dotted, -⟩
    · rw [empty, List.append_nil, base]
      exact stem_of_not_mem none
    · exact absurd dotted none

theorem length_lt_stem_query {url : String} (ordinary : Ordinary url)
    (query : ¬ (trailer url.toList = [] ∨ '.' ∈ fileName url ∧ '.' ∉ trailer url.toList)) :
    (beforeDot (fileName url)).length < (stem (fileName url ++ trailer url.toList)).length := by
  rw [not_or, not_and_or, not_not] at query
  obtain ⟨hasQuery, dots⟩ := query
  by_cases dotted : '.' ∈ trailer url.toList
  · obtain ⟨x, y, is, none⟩ := exists_last dotted
    have long := @length_le_stem (fileName url ++ x) y none
    have base : (beforeDot (fileName url)).length ≤ (fileName url).length := by
      rcases ordinary.cases with ⟨before, after, is, -, -, -, -, base⟩ | ⟨-, -, base⟩
      · rw [base, is]
        simp
      · rw [base]
    have begins : x ≠ [] := by
      rintro rfl
      rcases trailer_cases url.toList with empty | ⟨c, rest, starts, mark⟩
      · exact hasQuery empty
      · rw [starts] at is
        rw [(List.cons.inj is).1] at mark
        rcases mark with mark | mark <;> cases mark
    have := List.length_pos_iff.mpr begins
    rw [is, ← List.append_assoc]
    rw [List.length_append] at long
    omega
  · rcases dots with noName | noQuery
    · rcases ordinary.cases with ⟨before, after, is, -⟩ | ⟨none, -, base⟩
      · exact absurd (is ▸ List.mem_append_right _ List.mem_cons_self) noName
      · have noDot : '.' ∉ fileName url ++ trailer url.toList := by
          rw [List.mem_append, not_or]
          exact ⟨none, dotted⟩
        have := List.length_pos_iff.mpr hasQuery
        rw [stem_of_not_mem noDot, base, List.length_append]
        omega
    · exact absurd noQuery dotted

theorem stem_unquote {url : String} (ordinary : Ordinary url) :
    stem (unquote (fileName url)) = unquote (beforeDot (fileName url)) := by
  rcases ordinary.cases with ⟨before, after, is, -, noDot, first, hasAfter, base⟩ | ⟨-, noDot, base⟩
  · rw [base, is, unquote_append separator_dot]
    exact stem_append noDot (unquote_ne_nil (ne_nil_of_head first)) (unquote_ne_nil hasAfter)
  · rw [base]
    exact stem_of_not_mem noDot

theorem stemSince314_unquote {url : String} (ordinary : Ordinary url)
    (escapes : hasEscape (beforeDot (fileName url)) = false) :
    stemSince314 (unquote (fileName url)) = unquote (beforeDot (fileName url)) := by
  rcases ordinary.cases with ⟨before, after, is, -, noDot, first, hasAfter, base⟩ | ⟨-, noDot, base⟩
  · rw [base] at escapes
    rw [base, is, unquote_append separator_dot, unquote_of_not_hasEscape escapes]
    exact stemSince314_append noDot first
  · rw [base]
    exact stemSince314_of_not_mem noDot

theorem sameId_iff {url : String} (accepted : HasImageUrl url) (ordinary : Ordinary url) :
    SameId url ↔ ShowsId url := by
  obtain ⟨decoded, written⟩ := names_of_ordinary accepted ordinary
  have collector : collectorId url = String.ofList (unquote (beforeDot (fileName url))) := by
    rw [collectorId, decoded, stem_unquote ordinary]
  have judge : judgeId url = String.ofList (stem (fileName url ++ trailer url.toList)) := by
    rw [judgeId, written]
  constructor
  · intro same
    have equal := same.judge
    rw [judge, collector, String.ofList_inj] at equal
    have short := length_unquote (beforeDot (fileName url))
    by_cases query : trailer url.toList = [] ∨ '.' ∈ fileName url ∧ '.' ∉ trailer url.toList
    · rw [stem_query ordinary query] at equal
      exact ⟨query, unquote_eq_self_iff.mp equal.symm⟩
    · have long := length_lt_stem_query ordinary query
      rw [equal] at long
      omega
  · intro shows
    constructor
    · rw [gatewayId, decoded, collector, stemSince314_unquote ordinary shows.escapes]
    · rw [judge, collector, stem_query ordinary shows.query, unquote_of_not_hasEscape shows.escapes]

/-! ## Collected results are judged -/

theorem get_collected_from (saved : Dict String α) (absent : α) (prompts : List String)
    (generations : Dict String α) (id : String) :
    (prompts.foldl (fun generations prompt =>
      generations.set (collectorId prompt) ((saved.get (collectorId prompt)).getD absent))
      generations).get id =
        if id ∈ prompts.map collectorId then some ((saved.get id).getD absent)
        else generations.get id := by
  induction prompts generalizing generations with
  | nil => rfl
  | cons prompt prompts ih =>
      rw [List.foldl_cons, ih, List.map_cons, Dict.get_set]
      by_cases later : id ∈ prompts.map collectorId
      · rw [if_pos later, if_pos (List.mem_cons_of_mem _ later)]
      · rw [if_neg later]
        by_cases own : id = collectorId prompt
        · rw [if_pos own, if_pos (own ▸ List.mem_cons_self), own]
        · rw [if_neg own, if_neg (by simp only [List.mem_cons, not_or]; exact ⟨own, later⟩)]

theorem get_collected (saved : Dict String α) (absent : α) (prompts : List String) (id : String) :
    (collected saved absent prompts).get id =
      if id ∈ prompts.map collectorId then some ((saved.get id).getD absent) else none :=
  get_collected_from saved absent prompts .empty id

theorem judged_collected {prompts : List String} {prompt : String} (member : prompt ∈ prompts)
    (same : SameId prompt) (saved : Dict String α) (absent default : α) :
    judged (collected saved absent prompts) default prompt =
      (saved.get (collectorId prompt)).getD absent := by
  rw [judged, same.judge, get_collected, if_pos (List.mem_map_of_mem member)]
  rfl

theorem baseline_collected {prompts : List String} (nonempty : prompts ≠ [])
    (same : ∀ prompt ∈ prompts, SameId prompt) (saved : Dict String α) (absent : α) :
    BaselineMatches (collected saved absent prompts) prompts := by
  refine ⟨nonempty, Finset.ext fun id => ?_⟩
  have ids : prompts.map judgeId = prompts.map collectorId :=
    List.map_congr_left fun prompt member => (same prompt member).judge
  rw [List.mem_toFinset, List.mem_toFinset, ids, ← Dict.contains_iff, Dict.contains, get_collected]
  split <;> simp_all

instance (url : String) : Decidable (Ordinary url) :=
  have undotted (c : Option Char) : Decidable (∃ d ∈ c, d ≠ '.') := Option.decidableExistsMem c
  decidable_of_iff (clean url.toList = url.toList ∧ '/' ∉ trailer url.toList ∧
      (∃ c ∈ (fileName url).head?, c ≠ '.') ∧ (∃ c ∈ (fileName url).getLast?, c ≠ '.') ∧
      '/' ∉ unquote (fileName url) ∧ '.' ∉ unquote (afterDot (fileName url)))
    ⟨fun ⟨a, b, c, d, e, f⟩ => ⟨a, b, c, d, e, f⟩, fun ⟨a, b, c, d, e, f⟩ => ⟨a, b, c, d, e, f⟩⟩

instance (url : String) : Decidable (ShowsId url) :=
  decidable_of_iff ((trailer url.toList = [] ∨ '.' ∈ fileName url ∧ '.' ∉ trailer url.toList) ∧
      hasEscape (beforeDot (fileName url)) = false)
    ⟨fun ⟨a, b⟩ => ⟨a, b⟩, fun ⟨a, b⟩ => ⟨a, b⟩⟩

end GenSubnet.Competition
