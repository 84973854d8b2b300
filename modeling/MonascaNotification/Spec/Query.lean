import MonascaNotification.Spec.Quote
import MonascaNotification.Spec.Urlparse

/-!
# What `parse_qs` reads

The `key=value` items of a query, and the parameters that `parse_qs` makes of them: the same pairs
under their keys, without the blank values (`perm_flatten_parseQs`, `perm_keyValues_iff`).
-/

namespace MonascaNotification.Urlparse

/-! ## Items -/

/-- The `key=value` items. The value may be empty. -/
def items (query : List Char) : List (List Char) := (query.splitOn '&').filter ('=' ∈ ·)

def itemPair (item : List Char) : String × String :=
  (unquotePlus (partition '=' item).1, unquotePlus (partition '=' item).2)

/-- Every `key=value` pair of a query, decoded. -/
def keyValues (query : List Char) : List (String × String) := (items query).map itemPair

/-- An item with an empty value. -/
def IsBlank (item : List Char) : Prop := (partition '=' item).2 = []

instance (item : List Char) : Decidable (IsBlank item) := inferInstanceAs (Decidable (_ = _))

theorem isBlank_of_not_mem {item : List Char} (h : '=' ∉ item) : IsBlank item := by
  rw [IsBlank, partition_of_not_mem h]

theorem parseItem_eq (item : List Char) :
    parseItem item = if IsBlank item then none else some (itemPair item) := rfl

/-- `parse_qsl` gives the pairs that are not blank. -/
theorem parseQsl_eq (query : List Char) :
    parseQsl query = ((items query).filter fun item => ¬ IsBlank item).map itemPair := by
  rw [parseQsl, items]
  induction query.splitOn '&' with
  | nil => rfl
  | cons item rest ih =>
    rw [List.filterMap_cons, parseItem_eq]
    by_cases hblank : IsBlank item
    · rw [if_pos hblank]
      by_cases hmem : '=' ∈ item
      · rw [List.filter_cons_of_pos (by simpa using hmem),
          List.filter_cons_of_neg (by simpa using hblank)]
        exact ih
      · rw [List.filter_cons_of_neg (by simpa using hmem)]
        exact ih
    · have hmem : '=' ∈ item := by
        by_contra hnot
        exact hblank (isBlank_of_not_mem hnot)
      rw [if_neg hblank, List.filter_cons_of_pos (by simpa using hmem),
        List.filter_cons_of_pos (by simpa using hblank), List.map_cons]
      exact congrArg _ ih

/-- No pair is left out exactly when no value is empty. -/
theorem perm_keyValues_iff (query : List Char) :
    (parseQsl query).Perm (keyValues query) ↔ ∀ item ∈ items query, ¬ IsBlank item := by
  rw [parseQsl_eq, keyValues]
  constructor
  · intro h item hitem
    have hlength := h.length_eq
    rw [List.length_map, List.length_map, List.length_filter_eq_length_iff] at hlength
    simpa using hlength item hitem
  · intro h
    rw [List.filter_eq_self.mpr fun item hitem => by simpa using h item hitem]

/-! ## Parameters -/

/-- The pairs of a dictionary of lists. -/
def flatten (params : QueryParams) : List (String × String) :=
  params.flatMap fun param => param.2.map fun value => (param.1, value)

theorem flatten_cons (param : String × List String) (params : QueryParams) :
    flatten (param :: params) = param.2.map (fun value => (param.1, value)) ++ flatten params :=
  List.flatMap_cons

/-- One value more under a key. -/
def addValue (pair : String × String) (param : String × List String) : String × List String :=
  if param.1 = pair.1 then (param.1, param.2 ++ [pair.2]) else param

theorem fst_addValue (pair : String × String) (param : String × List String) :
    (addValue pair param).1 = param.1 := by
  rw [addValue]
  split
  · rfl
  · rfl

theorem map_addValue_of_not_mem {pair : String × String} {params : QueryParams}
    (h : pair.1 ∉ params.map Prod.fst) : params.map (addValue pair) = params := by
  refine (List.map_congr_left fun param hparam => ?_).trans (List.map_id _)
  exact if_neg fun (heq : param.1 = pair.1) => h (heq ▸ List.mem_map_of_mem hparam)

theorem perm_flatten_map_addValue {pair : String × String} {params : QueryParams}
    (hnodup : (params.map Prod.fst).Nodup) (h : pair.1 ∈ params.map Prod.fst) :
    (flatten (params.map (addValue pair))).Perm (pair :: flatten params) := by
  induction params with
  | nil => cases h
  | cons param params ih =>
    rw [List.map_cons, List.nodup_cons] at hnodup
    rw [List.map_cons, flatten_cons, flatten_cons, fst_addValue]
    -- the keys are different, so that only one entry gets the value
    by_cases hkey : param.1 = pair.1
    · rw [map_addValue_of_not_mem (hkey ▸ hnodup.1), addValue, if_pos hkey, List.map_append, hkey,
        List.append_assoc]
      exact List.perm_middle
    · have hmem : pair.1 ∈ params.map Prod.fst :=
        (List.mem_cons.mp h).resolve_left fun heq => hkey heq.symm
      rw [addValue, if_neg hkey]
      exact ((ih hnodup.2 hmem).append_left _).trans List.perm_middle

/-- One pair more: the keys stay different, and so do the other pairs. -/
theorem addParam_perm {params : QueryParams} (hnodup : (params.map Prod.fst).Nodup)
    (pair : String × String) :
    (flatten (addParam params pair)).Perm (pair :: flatten params) ∧
      ((addParam params pair).map Prod.fst).Nodup := by
  have hany : params.any (·.1 == pair.1) = true ↔ pair.1 ∈ params.map Prod.fst := by
    simp [List.any_eq_true]
  by_cases h : params.any (·.1 == pair.1) = true
  · have hadd : addParam params pair = params.map (addValue pair) := if_pos h
    rw [hadd]
    refine ⟨perm_flatten_map_addValue hnodup (hany.mp h), ?_⟩
    have hfst : (params.map (addValue pair)).map Prod.fst = params.map Prod.fst := by
      rw [List.map_map]
      exact List.map_congr_left fun param _ => fst_addValue pair param
    rw [hfst]
    exact hnodup
  · have hadd : addParam params pair = params ++ [(pair.1, [pair.2])] := if_neg h
    rw [hadd]
    constructor
    · rw [flatten, List.flatMap_append]
      exact List.perm_append_comm
    · rw [List.map_append, List.nodup_append]
      refine ⟨hnodup, by simp, fun a ha b hb hab => h (hany.mpr ?_)⟩
      rw [List.map_singleton, List.mem_singleton] at hb
      rw [← hb, ← hab]
      exact ha

theorem foldl_addParam_perm (pairs : List (String × String)) {params : QueryParams}
    (hnodup : (params.map Prod.fst).Nodup) :
    (flatten (pairs.foldl addParam params)).Perm (pairs ++ flatten params) ∧
      ((pairs.foldl addParam params).map Prod.fst).Nodup := by
  induction pairs generalizing params with
  | nil => exact ⟨List.Perm.refl _, hnodup⟩
  | cons pair pairs ih =>
    obtain ⟨hperm, hnodup⟩ := addParam_perm hnodup pair
    obtain ⟨hrest, hkeys⟩ := ih hnodup
    exact ⟨hrest.trans ((hperm.append_left pairs).trans List.perm_middle), hkeys⟩

theorem nodup_no_params : (([] : QueryParams).map Prod.fst).Nodup := List.nodup_nil

/-- The dictionary has the pairs of `parse_qsl`, each once. -/
theorem perm_flatten_parseQs (query : List Char) :
    (flatten (parseQs query)).Perm (parseQsl query) := by
  have h := (foldl_addParam_perm (parseQsl query) nodup_no_params).1
  rwa [flatten.eq_def [], List.flatMap_nil, List.append_nil] at h

theorem nodup_parseQs (query : List Char) : ((parseQs query).map Prod.fst).Nodup :=
  (foldl_addParam_perm (parseQsl query) nodup_no_params).2

/-- Under different keys, each value is on its own. -/
theorem foldl_addParam_of_nodup {pairs : List (String × String)} {params : QueryParams}
    (h : (params.map Prod.fst ++ pairs.map Prod.fst).Nodup) :
    pairs.foldl addParam params = params ++ pairs.map fun pair => (pair.1, [pair.2]) := by
  induction pairs generalizing params with
  | nil => simp
  | cons pair pairs ih =>
    -- a key that is not there yet gets an entry of its own
    have hnew : ¬ params.any (·.1 == pair.1) = true := by
      intro hany
      obtain ⟨param, hparam, heq⟩ := List.any_eq_true.mp hany
      have hkey : param.1 = pair.1 := by simpa using heq
      exact (List.nodup_append.mp h).2.2 param.1 (List.mem_map_of_mem hparam) pair.1
        List.mem_cons_self hkey
    have hadd : addParam params pair = params ++ [(pair.1, [pair.2])] := if_neg hnew
    rw [List.foldl_cons, hadd, ih, List.map_cons, List.append_assoc]
    · rfl
    · rw [List.map_append, List.append_assoc]
      exact h

/-! ## The length of what is read -/

def plusToSpace (s : List Char) : List Char := s.map fun c => if c = '+' then ' ' else c

theorem length_unquotePlus_le (s : List Char) : (unquotePlus s).length ≤ s.length := by
  have h := length_unquote_le (plusToSpace s)
  rw [plusToSpace, List.length_map] at h
  rwa [unquotePlus, String.length_ofList]

theorem length_unquotePlus_eq_iff {s : List Char} :
    (unquotePlus s).length = s.length ↔ hasEscape (plusToSpace s) = false := by
  have h := length_unquote_eq_iff (s := plusToSpace s)
  rw [plusToSpace, List.length_map] at h
  rwa [unquotePlus, String.length_ofList]

theorem toList_unquotePlus {s : List Char} (h : hasEscape (plusToSpace s) = false) :
    (unquotePlus s).toList = plusToSpace s := by
  rw [unquotePlus, String.toList_ofList]
  exact unquote_of_not_hasEscape h

/-- The characters that a pair takes in a query, with `=` and a separator. -/
def weight (pair : String × String) : Nat := pair.1.length + pair.2.length + 2

/-- An item without escapes in its two parts. -/
def IsTight (item : List Char) : Prop :=
  hasEscape (plusToSpace (partition '=' item).1) = false ∧
    hasEscape (plusToSpace (partition '=' item).2) = false

theorem weight_itemPair {item : List Char} (h : '=' ∈ item) :
    weight (itemPair item) ≤ item.length + 1 ∧
      (item.length + 1 ≤ weight (itemPair item) → IsTight item) := by
  rcases partition_cases '=' item with ⟨hnot, -⟩ | ⟨name, value, rfl, -, heq⟩
  · exact absurd h hnot
  · have hname := length_unquotePlus_le name
    have hvalue := length_unquotePlus_le value
    have hlength : (name ++ '=' :: value).length = name.length + (value.length + 1) := by
      rw [List.length_append, List.length_cons]
    rw [weight, itemPair, IsTight, heq, hlength]
    dsimp only
    constructor
    · omega
    · intro hle
      exact ⟨length_unquotePlus_eq_iff.mp (by omega), length_unquotePlus_eq_iff.mp (by omega)⟩

theorem mem_of_not_isBlank {item : List Char} (h : ¬ IsBlank item) : '=' ∈ item := by
  by_contra hnot
  exact h (isBlank_of_not_mem hnot)

theorem sum_weight_le (its : List (List Char)) :
    ((its.filterMap parseItem).map weight).sum ≤ (its.map fun item => item.length + 1).sum := by
  induction its with
  | nil => exact Nat.le_refl 0
  | cons item its ih =>
    rw [List.filterMap_cons, parseItem_eq, List.map_cons, List.sum_cons]
    by_cases hblank : IsBlank item
    · rw [if_pos hblank]
      exact Nat.le_trans ih (Nat.le_add_left _ _)
    · have hweight := (weight_itemPair (mem_of_not_isBlank hblank)).1
      rw [if_neg hblank]
      dsimp only
      rw [List.map_cons, List.sum_cons]
      exact Nat.add_le_add hweight ih

/-- When nothing gets shorter, every item is read as it stands. -/
theorem tight_of_sum_weight {its : List (List Char)}
    (h : (its.map fun item => item.length + 1).sum ≤ ((its.filterMap parseItem).map weight).sum) :
    ∀ item ∈ its, '=' ∈ item ∧ IsTight item := by
  induction its with
  | nil => exact fun item hitem => absurd hitem List.not_mem_nil
  | cons item its ih =>
    have hrest := sum_weight_le its
    rw [List.filterMap_cons, parseItem_eq, List.map_cons, List.sum_cons] at h
    by_cases hblank : IsBlank item
    · -- a blank item is dropped, so that the others would have to make up for its length
      rw [if_pos hblank] at h
      dsimp only at h
      omega
    · obtain ⟨hle, htight⟩ := weight_itemPair (mem_of_not_isBlank hblank)
      rw [if_neg hblank] at h
      dsimp only at h
      rw [List.map_cons, List.sum_cons] at h
      intro other hother
      rcases List.mem_cons.mp hother with rfl | hother
      · exact ⟨mem_of_not_isBlank hblank, htight (by omega)⟩
      · exact ih (by omega) other hother

/-! ## Texts put into a query as they are -/

def pairItem (pair : String × String) : List Char := pair.1.toList ++ '=' :: pair.2.toList

/-- `key=value` items with `&` between them, and nothing escaped. -/
def queryText (pairs : List (String × String)) : List Char :=
  ['&'].intercalate (pairs.map pairItem)

/-- The query that `urlsplit` reads when `text` stands after the `?`. -/
def received (text : List Char) : List Char := (partition '#' (text.filter isSafe)).1

/-- A text that a query can hold as it is. -/
def IsPlain (s : List Char) : Prop :=
  (∀ c ∈ s, c ≠ '&' ∧ c ≠ '#' ∧ c ≠ '+' ∧ isSafe c = true) ∧ hasEscape s = false

instance (s : List Char) : Decidable (IsPlain s) :=
  @instDecidableAnd _ _ (List.decidableBAll _ s) inferInstance

/-- A pair that a query can hold as it is. -/
def IsPlainPair (pair : String × String) : Prop :=
  IsPlain pair.1.toList ∧ '=' ∉ pair.1.toList ∧ IsPlain pair.2.toList

instance (pair : String × String) : Decidable (IsPlainPair pair) :=
  inferInstanceAs (Decidable (_ ∧ _ ∧ _))

theorem length_received_le (text : List Char) : (received text).length ≤ text.length :=
  ((List.takeWhile_sublist _).trans List.filter_sublist).length_le

theorem sum_weight (pairs : List (String × String)) (h : pairs ≠ []) :
    (pairs.map weight).sum = (queryText pairs).length + 1 := by
  have hne : pairs.map pairItem ≠ [] := fun hnil => h (List.map_eq_nil_iff.mp hnil)
  rw [queryText, Infra.length_intercalate hne, List.map_map]
  congr 1
  refine List.map_congr_left fun pair _ => ?_
  rw [weight, Function.comp_apply, pairItem, List.length_append, List.length_cons,
    String.length_toList, String.length_toList]
  omega

/-! ### What comes back is plain -/

theorem isPlain_plusToSpace {s : List Char} (hescape : hasEscape (plusToSpace s) = false)
    (h : ∀ c ∈ s, c ≠ '&' ∧ c ≠ '#' ∧ isSafe c = true) : IsPlain (plusToSpace s) := by
  refine ⟨fun c hc => ?_, hescape⟩
  obtain ⟨d, hd, rfl⟩ := List.mem_map.mp hc
  obtain ⟨hamp, hhash, hsafe⟩ := h d hd
  by_cases hplus : d = '+'
  · rw [if_pos hplus]
    decide
  · rw [if_neg hplus]
    exact ⟨hamp, hhash, hplus, hsafe⟩

theorem mem_received {text : List Char} {c : Char} (h : c ∈ received text) :
    c ≠ '#' ∧ isSafe c = true := by
  refine ⟨fun heq => not_mem_partition '#' _ (heq ▸ h), ?_⟩
  exact (List.mem_filter.mp (mem_of_mem_partition (.inl h))).2

/-- A tight item gives a plain pair. -/
theorem isPlainPair_itemPair {text item : List Char} (hitem : item ∈ (received text).splitOn '&')
    (htight : IsTight item) : IsPlainPair (itemPair item) := by
  have hchars : ∀ c ∈ item, c ≠ '&' ∧ c ≠ '#' ∧ isSafe c = true := by
    intro c hc
    obtain ⟨hhash, hsafe⟩ := mem_received (Infra.mem_of_mem_splitOn hitem hc)
    exact ⟨fun heq => Infra.not_mem_of_mem_splitOn hitem (heq ▸ hc), hhash, hsafe⟩
  obtain ⟨hname, hvalue⟩ := htight
  rw [IsPlainPair, itemPair]
  dsimp only
  rw [toList_unquotePlus hname, toList_unquotePlus hvalue]
  refine ⟨isPlain_plusToSpace hname fun c hc => hchars c (mem_of_mem_partition (.inl hc)),
    fun hmem => ?_,
    isPlain_plusToSpace hvalue fun c hc => hchars c (mem_of_mem_partition (.inr hc))⟩
  obtain ⟨d, hd, heq⟩ := List.mem_map.mp hmem
  by_cases hplus : d = '+'
  · rw [if_pos hplus] at heq
    exact absurd heq (by decide)
  · rw [if_neg hplus] at heq
    exact not_mem_partition '=' item (heq ▸ hd)

/-- Decoding never makes a text longer: what comes back whole had nothing to decode. -/
theorem isPlainPair_of_perm {pairs : List (String × String)} (hne : pairs ≠ [])
    (h : (parseQsl (received (queryText pairs))).Perm pairs) :
    ∀ pair ∈ pairs, IsPlainPair pair := by
  have hsum : ((parseQsl (received (queryText pairs))).map weight).sum =
      (queryText pairs).length + 1 := by
    rw [(h.map weight).sum_eq, sum_weight pairs hne]
  -- `&` and `#` of the pairs only cut the query, they do not add to it
  have hshort : (((received (queryText pairs)).splitOn '&').map fun item => item.length + 1).sum ≤
      ((parseQsl (received (queryText pairs))).map weight).sum := by
    have hlength := length_received_le (queryText pairs)
    rw [Infra.sum_length_splitOn, hsum]
    omega
  intro pair hpair
  obtain ⟨item, hitem, hparse⟩ := List.mem_filterMap.mp (h.mem_iff.mpr hpair)
  rw [parseItem_eq] at hparse
  split at hparse
  · cases hparse
  · cases hparse
    exact isPlainPair_itemPair hitem (tight_of_sum_weight hshort item hitem).2

/-! ### What is plain comes back -/

theorem plusToSpace_of_isPlain {s : List Char} (h : IsPlain s) : plusToSpace s = s := by
  refine (List.map_congr_left fun c hc => ?_).trans (List.map_id s)
  exact if_neg (h.1 c hc).2.2.1

theorem unquotePlus_of_isPlain {s : String} (h : IsPlain s.toList) :
    unquotePlus s.toList = s := by
  have hplus := plusToSpace_of_isPlain h
  refine String.toList_inj.mp ?_
  rw [toList_unquotePlus (by rw [hplus]; exact h.2), hplus]

theorem parseItem_pairItem {pair : String × String} (h : IsPlainPair pair) (hvalue : pair.2 ≠ "") :
    parseItem (pairItem pair) = some pair := by
  have hsplit : partition '=' (pairItem pair) = (pair.1.toList, pair.2.toList) :=
    partition_append h.2.1
  have hne : pair.2.toList ≠ [] := fun hnil => hvalue (String.toList_inj.mp hnil)
  rw [parseItem, hsplit]
  dsimp only
  rw [if_neg hne, unquotePlus_of_isPlain h.1, unquotePlus_of_isPlain h.2.2]

theorem received_queryText {pairs : List (String × String)} (h : ∀ pair ∈ pairs, IsPlainPair pair) :
    received (queryText pairs) = queryText pairs := by
  have hchars : ∀ c ∈ queryText pairs, c ≠ '#' ∧ isSafe c = true := by
    intro c hc
    rcases Infra.mem_intercalate hc with rfl | ⟨item, hitem, hc⟩
    · decide
    · obtain ⟨pair, hpair, rfl⟩ := List.mem_map.mp hitem
      obtain ⟨hkey, -, hvalue⟩ := h pair hpair
      rcases List.mem_append.mp hc with hc | hc
      · exact ⟨(hkey.1 c hc).2.1, (hkey.1 c hc).2.2.2⟩
      · rcases List.mem_cons.mp hc with rfl | hc
        · decide
        · exact ⟨(hvalue.1 c hc).2.1, (hvalue.1 c hc).2.2.2⟩
  rw [received, List.filter_eq_self.mpr fun c hc => (hchars c hc).2,
    partition_of_not_mem fun hc => (hchars '#' hc).1 rfl]

theorem splitOn_queryText {pairs : List (String × String)} (hne : pairs ≠ [])
    (h : ∀ pair ∈ pairs, IsPlainPair pair) :
    (queryText pairs).splitOn '&' = pairs.map pairItem := by
  refine List.splitOn_intercalate '&' (fun item hitem hmem => ?_) (by simpa using hne)
  obtain ⟨pair, hpair, rfl⟩ := List.mem_map.mp hitem
  obtain ⟨hkey, -, hvalue⟩ := h pair hpair
  rcases List.mem_append.mp hmem with hc | hc
  · exact (hkey.1 '&' hc).1 rfl
  · exact (hvalue.1 '&' ((List.mem_cons.mp hc).resolve_left (by decide))).1 rfl

theorem parseQsl_queryText {pairs : List (String × String)} (hne : pairs ≠ [])
    (h : ∀ pair ∈ pairs, IsPlainPair pair) (hvalues : ∀ pair ∈ pairs, pair.2 ≠ "") :
    parseQsl (received (queryText pairs)) = pairs := by
  rw [parseQsl, received_queryText h, splitOn_queryText hne h, List.filterMap_map]
  refine (List.filterMap_congr fun pair hpair => ?_).trans List.filterMap_some
  exact parseItem_pairItem (h pair hpair) (hvalues pair hpair)

/-- The dictionary with one value for each key. -/
def singles (pairs : List (String × String)) : QueryParams :=
  pairs.map fun pair => (pair.1, [pair.2])

theorem flatten_singles (pairs : List (String × String)) : flatten (singles pairs) = pairs := by
  induction pairs with
  | nil => rfl
  | cons pair pairs ih =>
    rw [singles, List.map_cons, flatten_cons]
    exact congrArg (pair :: ·) ih

/-- **Round trip.** The pairs come back exactly when they are plain and their keys are different. -/
theorem perm_parseQs_queryText_iff {pairs : List (String × String)} (hne : pairs ≠ [])
    (hvalues : ∀ pair ∈ pairs, pair.2 ≠ "") :
    (parseQs (received (queryText pairs))).Perm (singles pairs) ↔
      (∀ pair ∈ pairs, IsPlainPair pair) ∧ (pairs.map Prod.fst).Nodup := by
  constructor
  · intro h
    have hflat : (flatten (parseQs (received (queryText pairs)))).Perm (flatten (singles pairs)) :=
      h.flatMap_right _
    rw [flatten_singles] at hflat
    refine ⟨isPlainPair_of_perm hne ((perm_flatten_parseQs _).symm.trans hflat), ?_⟩
    have hkeys := (h.map Prod.fst).nodup_iff.mp (nodup_parseQs _)
    rwa [singles, List.map_map] at hkeys
  · rintro ⟨hplain, hkeys⟩
    have hfold : pairs.foldl addParam [] = [] ++ singles pairs := foldl_addParam_of_nodup hkeys
    rw [parseQs, parseQsl_queryText hne hplain hvalues, hfold]
    exact List.Perm.refl _

end MonascaNotification.Urlparse
