import Mathlib.Data.List.Infix
import Mathlib.Order.Compare
import NearCache.Config.Catalog
import NearCache.Proofs.Text.Bytes

/-!
The configuration that a cache name finds: the one of exactly that name, else of all patterns that match
it the one that fixes the most bytes, and of several such the first.
-/

namespace NearCache

theorem cutAtChar?_eq_some_iff {sep : Char} {cs before after : List Char} :
    cutAtChar? sep cs = some (before, after) ↔ cs = before ++ sep :: after ∧ sep ∉ before := by
  induction cs generalizing before with
  | nil => simp [cutAtChar?]
  | cons c cs ih =>
      rw [cutAtChar?]
      by_cases hSep : c = sep
      · cases before with
        | nil => simp [hSep, eq_comm]
        | cons b before =>
            simp [hSep]
            grind
      · cases before with
        | nil => simp [hSep]
        | cons b before =>
            simp [hSep, ih]
            grind

/-- What stands before and after the star fits a text without overlap if both fit and the text is long
enough. -/
theorem fits_iff {before after text : List Char} :
    (utf8Length before + utf8Length after ≤ utf8Length text ∧ before <+: text ∧ after <:+ text) ↔
      ∃ middle, text = before ++ middle ++ after := by
  constructor
  · rintro ⟨hLength, ⟨rest, rfl⟩, hSuffix⟩
    have hRest : after <:+ rest := by
      rcases List.suffix_or_suffix_of_suffix hSuffix (List.suffix_append before rest) with h | h
      · exact h
      · obtain ⟨shared, rfl⟩ := h
        rw [utf8Length_append, utf8Length_append] at hLength
        have hNone : shared = [] := utf8Length_eq_zero (by omega)
        rw [hNone]
        exact List.suffix_refl rest
    obtain ⟨middle, rfl⟩ := hRest
    exact ⟨middle, (List.append_assoc ..).symm⟩
  · rintro ⟨middle, rfl⟩
    refine ⟨?_, ?_, List.suffix_append _ _⟩
    · rw [utf8Length_append, utf8Length_append]
      omega
    · rw [List.append_assoc]
      exact List.prefix_append _ _

/-- The pattern matches the name and fixes so many bytes of it: the name is what stands before the first
star of the pattern, then any text, then what stands after it. -/
def Matches (pattern name : String) (fixed : Nat) : Prop :=
  ∃ before middle after : String, '*' ∉ before.toList ∧ pattern = before ++ "*" ++ after ∧
    name = before ++ middle ++ after ∧ fixed = before.utf8ByteSize + after.utf8ByteSize

theorem CacheConfig.patternScore?_eq_some_iff {c : CacheConfig} {name : String} {fixed : Nat} :
    c.patternScore? name = some fixed ↔ Matches c.name name fixed := by
  unfold patternScore? Matches
  cases hCut : cutAtChar? '*' c.name.toList with
  | none =>
      refine iff_of_false nofun ?_
      rintro ⟨before, middle, after, hStar, hPattern, -⟩
      have hFound : cutAtChar? '*' c.name.toList = some (before.toList, after.toList) :=
        cutAtChar?_eq_some_iff.mpr ⟨by simp [hPattern], hStar⟩
      rw [hCut] at hFound
      cases hFound
  | some parts =>
      obtain ⟨before, after⟩ := parts
      obtain ⟨hPattern, hStar⟩ := cutAtChar?_eq_some_iff.mp hCut
      have hFits := @fits_iff before after name.toList
      simp only [List.isPrefixOf_iff_prefix, List.isSuffixOf_iff_suffix, hFits, Option.ite_none_right_eq_some,
        Option.some.injEq]
      constructor
      · rintro ⟨⟨middle, hName⟩, rfl⟩
        refine ⟨.ofList before, .ofList middle, .ofList after, by simpa using hStar, ?_, ?_, ?_⟩
        · apply String.toList_injective
          simp [hPattern]
        · apply String.toList_injective
          simp [hName]
        · simp [← utf8Length_toList]
      · rintro ⟨before', middle, after', hStar', hPattern', rfl, rfl⟩
        have hFound : cutAtChar? '*' c.name.toList = some (before'.toList, after'.toList) :=
          cutAtChar?_eq_some_iff.mpr ⟨by simp [hPattern'], hStar'⟩
        rw [hCut] at hFound
        cases hFound
        exact ⟨⟨middle.toList, by simp⟩, by simp [utf8Length_toList]⟩

namespace ConfigCatalog

variable {configs : List CacheConfig} {c d : CacheConfig} {name : String}

/-- Of configurations added one after the other, this one was not replaced. -/
def InForce (configs : List CacheConfig) (c : CacheConfig) : Prop :=
  ∃ earlier later, configs = earlier ++ c :: later ∧ ∀ d ∈ later, d.name ≠ c.name

theorem inForce_concat :
    InForce (configs ++ [d]) c ↔ c = d ∨ InForce configs c ∧ d.name ≠ c.name := by
  constructor
  · rintro ⟨earlier, later, hConfigs, hLast⟩
    rcases List.eq_nil_or_concat later with rfl | ⟨later, last, rfl⟩
    · exact Or.inl (List.append_inj_right' hConfigs rfl |> List.singleton_injective).symm
    · rw [List.concat_eq_append, ← List.cons_append, ← List.append_assoc] at hConfigs
      obtain ⟨rfl, hSame⟩ := List.append_inj' hConfigs rfl
      obtain rfl := List.singleton_injective hSame
      simp only [List.concat_eq_append, List.forall_mem_append, List.forall_mem_singleton] at hLast
      exact Or.inr ⟨⟨earlier, later, rfl, hLast.1⟩, hLast.2⟩
  · rintro (rfl | ⟨⟨earlier, later, rfl, hLast⟩, hOther⟩)
    · exact ⟨configs, [], rfl, nofun⟩
    · refine ⟨earlier, later ++ [d], by simp, ?_⟩
      rw [List.forall_mem_append, List.forall_mem_singleton]
      exact ⟨hLast, hOther⟩

theorem getElem?_ofList :
    (ofList configs).configs[name]? = some c ↔ InForce configs c ∧ c.name = name := by
  induction configs using List.reverseRecOn with
  | nil => simp [ofList, empty, InForce]
  | append_singleton configs d ih =>
      have hAdded : (ofList (configs ++ [d])).configs =
          (ofList configs).configs.insert d.name d := by
        simp [ofList, insert]
      rw [hAdded, Std.ExtTreeMap.getElem?_insert, inForce_concat]
      by_cases hName : d.name = name
      · rw [if_pos (Std.LawfulEqOrd.compare_eq_iff_eq.mpr hName), Option.some_inj]
        grind
      · rw [if_neg (mt Std.LawfulEqOrd.compare_eq_iff_eq.mp hName), ih]
        grind

theorem mem_toList : c ∈ (ofList configs).toList ↔ InForce configs c := by
  simp only [toList, List.mem_map, Prod.exists, exists_eq_right,
    Std.ExtTreeMap.mem_toList_iff_getElem?_eq_some, getElem?_ofList, exists_and_left, exists_eq',
    and_true]

theorem toList_ascending (configs : List CacheConfig) :
    (ofList configs).toList.Pairwise fun c d => c.name < d.name := by
  rw [toList, List.pairwise_map]
  refine (ofList configs).configs.ordered_keys_toList.imp_of_mem ?_
  rintro ⟨key, c⟩ ⟨key', d⟩ hc hd hLess
  rw [Std.ExtTreeMap.mem_toList_iff_getElem?_eq_some, getElem?_ofList] at hc hd
  obtain ⟨-, rfl⟩ := hc
  obtain ⟨-, rfl⟩ := hd
  exact compare_lt_iff_lt.mp hLess

/-- The configuration is the best match among some: no other fixes more bytes, and none that fixes as
many comes before it. -/
def IsBest (configs : List CacheConfig) (name : String) (fixed : Nat) (c : CacheConfig) : Prop :=
  c ∈ configs ∧ c.patternScore? name = some fixed ∧
    ∀ d ∈ configs, ∀ other, d.patternScore? name = some other →
      other < fixed ∨ other = fixed ∧ c.name ≤ d.name

theorem better_none (h : d.patternScore? name = none) (best : Option (Nat × CacheConfig)) :
    better name best d = best := by
  simp [better, h]

theorem IsBest.concat {fixed : Nat} (h : IsBest configs name fixed c)
    (hLast : ∀ other, d.patternScore? name = some other →
      other < fixed ∨ other = fixed ∧ c.name ≤ d.name) :
    IsBest (configs ++ [d]) name fixed c := by
  obtain ⟨hMember, hScore, hOthers⟩ := h
  refine ⟨List.mem_append_left _ hMember, hScore, ?_⟩
  rw [List.forall_mem_append, List.forall_mem_singleton]
  exact ⟨hOthers, hLast⟩

theorem isBest_last {fixed : Nat} (hScore : d.patternScore? name = some fixed)
    (hLess : ∀ e ∈ configs, ∀ other, e.patternScore? name = some other → other < fixed) :
    IsBest (configs ++ [d]) name fixed d := by
  refine ⟨by simp, hScore, ?_⟩
  rw [List.forall_mem_append, List.forall_mem_singleton]
  constructor
  · intro e he other hOther
    exact Or.inl (hLess e he other hOther)
  · intro other hOther
    rw [hScore, Option.some_inj] at hOther
    exact Or.inr ⟨hOther.symm, le_refl _⟩

/-- What a search through some configurations ends with: the best match, or nothing if none matches. -/
def Found (configs : List CacheConfig) (name : String) : Option (Nat × CacheConfig) → Prop
  | none => ∀ d ∈ configs, d.patternScore? name = none
  | some (fixed, c) => IsBest configs name fixed c

/-- One more configuration, which comes after all others, replaces the best match only with more bytes. So
the first of several best ones is the one to keep. -/
theorem Found.better {best : Option (Nat × CacheConfig)} (h : Found configs name best)
    (hLater : ∀ c ∈ configs, c.name < d.name) : Found (configs ++ [d]) name (better name best d) := by
  cases hScore : d.patternScore? name with
  | none =>
      rw [better_none hScore]
      cases best with
      | none =>
          unfold Found at h ⊢
          rw [List.forall_mem_append, List.forall_mem_singleton]
          exact ⟨h, hScore⟩
      | some found => exact h.concat (by simp [hScore])
  | some score =>
      cases best with
      | none =>
          have hAlone : ConfigCatalog.better name none d = some (score, d) := by
            simp [ConfigCatalog.better, hScore]
          rw [hAlone]
          apply isBest_last hScore
          intro e he other hOther
          rw [h e he] at hOther
          cases hOther
      | some found =>
          obtain ⟨top, c⟩ := found
          by_cases hMore : score > top
          · have hBetter : ConfigCatalog.better name (some (top, c)) d = some (score, d) := by
              simp [ConfigCatalog.better, hScore, hMore]
            rw [hBetter]
            apply isBest_last hScore
            intro e he other hOther
            have hTop := h.2.2 e he other hOther
            omega
          · have hKept : ConfigCatalog.better name (some (top, c)) d = some (top, c) := by
              simp [ConfigCatalog.better, hScore, hMore]
            rw [hKept]
            apply h.concat
            intro other hOther
            rw [hScore, Option.some_inj] at hOther
            have hFirst : c.name ≤ d.name := le_of_lt (hLater c h.1)
            rcases Nat.lt_or_ge other top with hLess | hEnough
            · exact Or.inl hLess
            · exact Or.inr ⟨by omega, hFirst⟩

theorem found_foldl (name : String) (hOrder : configs.Pairwise fun c d => c.name < d.name) :
    Found configs name (configs.foldl (better name) none) := by
  induction configs using List.reverseRecOn with
  | nil => exact nofun
  | append_singleton configs d ih =>
      rw [List.pairwise_append] at hOrder
      obtain ⟨hBefore, -, hLater⟩ := hOrder
      rw [List.foldl_concat]
      exact (ih hBefore).better fun c hc => hLater c hc d (List.mem_singleton.mpr rfl)

/-- The configuration is the one for a cache name. It has exactly this name; or no configuration has, and
of all patterns that match, its own fixes the most bytes, and comes first of those that fix as many. -/
def IsFor (configs : List CacheConfig) (name : String) (c : CacheConfig) : Prop :=
  InForce configs c ∧
    (c.name = name ∨
      (∀ d, InForce configs d → d.name ≠ name) ∧
        ∃ fixed, Matches c.name name fixed ∧
          ∀ d other, InForce configs d → Matches d.name name other →
            other < fixed ∨
              other = fixed ∧ (Data.ofString c.name).bytes ≤ (Data.ofString d.name).bytes)

/-- Names tell configurations in force apart. -/
theorem InForce.unique (hc : InForce configs c) (hd : InForce configs d) (h : c.name = d.name) :
    c = d := by
  have hFound := getElem?_ofList.mpr ⟨hc, h⟩
  rw [getElem?_ofList.mpr ⟨hd, rfl⟩, Option.some_inj] at hFound
  exact hFound.symm

theorem IsFor.unique (hc : IsFor configs name c) (hd : IsFor configs name d) : c = d := by
  obtain ⟨hc, hcName | ⟨hNone, fixed, hMatches, hMost⟩⟩ := hc
  · obtain ⟨hd, hdName | ⟨hNone, -⟩⟩ := hd
    · exact hc.unique hd (hcName.trans hdName.symm)
    · exact absurd hcName (hNone c hc)
  · obtain ⟨hd, hdName | ⟨-, other, hMatches', hMost'⟩⟩ := hd
    · exact absurd hdName (hNone d hd)
    · have hBelow := hMost d other hd hMatches'
      have hAbove := hMost' c fixed hc hMatches
      have hFirst := (hBelow.resolve_left (by omega)).2
      have hFirst' := (hAbove.resolve_left (by omega)).2
      rw [Data.bytes_le_iff] at hFirst hFirst'
      exact hc.unique hd (le_antisymm hFirst hFirst')

theorem IsBest.isFor {fixed : Nat} (h : IsBest (ofList configs).toList name fixed c)
    (hNone : ∀ d, InForce configs d → d.name ≠ name) : IsFor configs name c := by
  obtain ⟨hMember, hScore, hMost⟩ := h
  refine ⟨mem_toList.mp hMember, Or.inr ⟨hNone, fixed, ?_, ?_⟩⟩
  · exact CacheConfig.patternScore?_eq_some_iff.mp hScore
  · intro d other hd hMatches
    rw [Data.bytes_le_iff]
    exact hMost d (mem_toList.mpr hd) other (CacheConfig.patternScore?_eq_some_iff.mpr hMatches)

/-- What a search ends with, if it finds anything and if it finds nothing. -/
theorem find?_cases (configs : List CacheConfig) (name : String) :
    match (ofList configs).find? name with
    | some c => IsFor configs name c
    | none => ∀ d, InForce configs d → d.name ≠ name ∧ ∀ fixed, ¬Matches d.name name fixed := by
  unfold find?
  cases hExact : (ofList configs).configs[name]? with
  | some c =>
      obtain ⟨hForce, hName⟩ := getElem?_ofList.mp hExact
      exact ⟨hForce, Or.inl hName⟩
  | none =>
      have hNone : ∀ d, InForce configs d → d.name ≠ name := by
        intro d hd hName
        rw [getElem?_ofList.mpr ⟨hd, hName⟩] at hExact
        cases hExact
      have hBest := found_foldl name (toList_ascending configs)
      cases hFound : (ofList configs).toList.foldl (better name) none with
      | some found =>
          rw [hFound] at hBest
          exact IsBest.isFor hBest hNone
      | none =>
          rw [hFound] at hBest
          intro d hd
          refine ⟨hNone d hd, ?_⟩
          intro fixed hMatches
          have hScore := hBest d (mem_toList.mpr hd)
          rw [CacheConfig.patternScore?_eq_some_iff.mpr hMatches] at hScore
          cases hScore

/-- What a catalog finds for a cache name, after any configurations were added in any order: the one for
this name and no other, and nothing exactly if no configuration has this name and no pattern matches. -/
theorem find?_ofList (configs : List CacheConfig) (name : String) :
    (∀ c, (ofList configs).find? name = some c ↔ IsFor configs name c) ∧
      ((ofList configs).find? name = none ↔
        ∀ d, InForce configs d → d.name ≠ name ∧ ∀ fixed, ¬Matches d.name name fixed) := by
  have hCases := find?_cases configs name
  cases hFound : (ofList configs).find? name with
  | some c =>
      rw [hFound] at hCases
      refine ⟨fun d => ⟨?_, ?_⟩, iff_of_false nofun ?_⟩
      · rintro ⟨⟩
        exact hCases
      · intro hd
        rw [hCases.unique hd]
      · intro hAll
        obtain ⟨hForce, hName | ⟨-, fixed, hMatches, -⟩⟩ := hCases
        · exact (hAll c hForce).1 hName
        · exact (hAll c hForce).2 fixed hMatches
  | none =>
      rw [hFound] at hCases
      refine ⟨fun d => iff_of_false nofun ?_, iff_of_true rfl hCases⟩
      rintro ⟨hForce, hName | ⟨-, fixed, hMatches, -⟩⟩
      · exact (hCases d hForce).1 hName
      · exact (hCases d hForce).2 fixed hMatches

/-- All three match and fix two bytes, and a star comes before a letter. -/
example : ((ofList [.ofName "a*a", .ofName "ab*", .ofName "*ba"]).find? "aba").map (·.name) =
    some "*ba" := by
  decide

/-- What stands before the star and what stands after it do not overlap. -/
example : (ofList [.ofName "a*a"]).find? "a" = none := by
  decide

end ConfigCatalog

end NearCache
