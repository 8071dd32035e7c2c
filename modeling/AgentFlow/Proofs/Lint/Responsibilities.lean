import AgentFlow.Lint.Rules
import AgentFlow.Proofs.Text.Distinct

/-!
# Names with several responsibilities

A name in camel case is words and underscores, one after the other.  A word goes on up to the next
underscore or capital letter, so a name is cut in one way only.

* `IsWord`: no underscore, and no capital letter but at the start.
* `Cut`: the words of a text, with any number of underscores around them.
* `cut_iff`: **the words that are read are the only ones a name can be cut into.**
* `mem_verbPairs`: the verbs that are named have a verb beside them.
* `responsibilities_exact`: nothing of a name but its underscores is lost, and it states several
  responsibilities exactly if one of its words is `And` or two verbs stand side by side in it.
-/

namespace AgentFlow.Lint

open Text

/-! ## Words -/

/-- A word of a name: only its first character may be a capital letter. -/
structure IsWord (w : List Char) : Prop where
  ne_nil : w ≠ []
  plain : '_' ∉ w
  small : ∀ c ∈ w.tail, ¬ c.isUpper

/-- A character that no word goes on with. -/
def Breaks (c : Char) : Prop := c = '_' ∨ c.isUpper

instance : DecidablePred Breaks := fun c => inferInstanceAs (Decidable (c = '_' ∨ c.isUpper))

inductive Cut : List Char → List (List Char) → Prop
  | done : Cut [] []
  | gap {cs : List Char} {ws : List (List Char)} : Cut cs ws → Cut ('_' :: cs) ws
  | word {w cs : List Char} {ws : List (List Char)} : IsWord w → (∀ c ∈ cs.head?, Breaks c) →
      Cut cs ws → Cut (w ++ cs) (w :: ws)

variable {c : Char} {cs w word : List Char} {seen ws ws' : List (List Char)} {v : String}
  {verbs words : List String}

theorem isWord_singleton (hc : c ≠ '_') : IsWord [c] :=
  ⟨by simp, by simpa using hc.symm, by simp⟩

theorem IsWord.append (hw : IsWord w) (hc : ¬ Breaks c) : IsWord (w ++ [c]) := by
  obtain ⟨hne, hplain, hsmall⟩ := hw
  rw [Breaks, not_or] at hc
  refine ⟨by simp, ?_, ?_⟩
  · simp [hplain, Ne.symm hc.1]
  · intro d hd
    rw [List.tail_append_of_ne_nil hne, List.mem_append, List.mem_singleton] at hd
    rcases hd with hd | rfl
    · exact hsmall d hd
    · exact hc.2

theorem Cut.isWord (h : Cut cs ws) : ∀ w ∈ ws, IsWord w := by
  induction h with
  | done => simp
  | gap _ ih => exact ih
  | word hw _ _ ih => exact List.forall_mem_cons.mpr ⟨hw, ih⟩

/-- **Only underscores fall away.** -/
theorem Cut.flatten_eq (h : Cut cs ws) : ws.flatten = cs.filter (· ≠ '_') := by
  induction h with
  | done => rfl
  | gap _ ih => simpa using ih
  | @word w cs ws hw _ _ ih =>
    have hkept : w.filter (· ≠ '_') = w := by
      rw [List.filter_eq_self]
      intro c hc
      simpa using ne_of_mem_of_not_mem hc hw.plain
    rw [List.flatten_cons, List.filter_append, ih, hkept]

/-- The rest of a word is all there is before the next character that no word goes on with. -/
theorem IsWord.takeWhile_eq (hw : IsWord (c :: w)) (hcs : ∀ d ∈ cs.head?, Breaks d) :
    (w ++ cs).takeWhile (¬ Breaks ·) = w := by
  have hgo : ∀ d ∈ w, ¬ Breaks d := by
    intro d hd hbreaks
    rcases hbreaks with rfl | hupper
    · exact hw.plain (List.mem_cons_of_mem c hd)
    · exact hw.small d hd hupper
  rw [List.takeWhile_append_of_pos (by simpa using hgo)]
  cases cs with
  | nil => simp
  | cons d rest => simp [hcs d rfl]

theorem Cut.unique (h : Cut cs ws) (h' : Cut cs ws') : ws = ws' := by
  induction h generalizing ws' with
  | done =>
    generalize hds : [] = ds at h'
    cases h' with
    | done => rfl
    | gap => cases hds
    | word hw => exact absurd (List.append_eq_nil_iff.mp hds.symm).1 hw.ne_nil
  | @gap cs ws _ ih =>
    generalize hds : '_' :: cs = ds at h'
    cases h' with
    | done => cases hds
    | gap h' =>
      cases hds
      exact ih h'
    | @word w' _ _ hw =>
      obtain _ | ⟨c, w'⟩ := w'
      · exact absurd rfl hw.ne_nil
      · obtain rfl : '_' = c := (List.cons.inj hds).1
        simpa using hw.plain
  | @word w cs ws hw hcs _ ih =>
    generalize hds : w ++ cs = ds at h'
    obtain _ | ⟨c, w⟩ := w
    · exact absurd rfl hw.ne_nil
    cases h' with
    | done => cases hds
    | gap =>
      obtain rfl : c = '_' := (List.cons.inj hds).1
      simpa using hw.plain
    | @word w' cs' _ hw' hcs' h' =>
      obtain _ | ⟨c', w'⟩ := w'
      · exact absurd rfl hw'.ne_nil
      rw [List.cons_append, List.cons_append, List.cons.injEq] at hds
      obtain ⟨rfl, hrest⟩ := hds
      have hword : w = w' := by
        rw [← hw.takeWhile_eq hcs, hrest]
        exact hw'.takeWhile_eq hcs'
      subst hword
      obtain rfl := List.append_cancel_left hrest
      rw [ih h']

/-! ## Reading the words -/

/-- The words of a run that holds them in reverse. -/
def kept (seen : List (List Char)) : List (List Char) :=
  (seen.reverse.map List.reverse).filter (!·.isEmpty)

theorem kept_cons : kept (word :: seen) = kept seen ++ kept [word] := by simp [kept]

/-- The end of the word that a run is in. -/
theorem Cut.close (hword : word = [] ∨ IsWord word.reverse) (hcs : ∀ c ∈ cs.head?, Breaks c)
    (h : Cut cs ws) : Cut (word.reverse ++ cs) (kept [word] ++ ws) := by
  rcases hword with rfl | hword
  · exact h
  · have hkept : kept [word] = [word.reverse] := by simpa [kept] using hword.ne_nil
    rw [hkept]
    exact .word hword hcs h

/-- A run cuts the word that it is in, and all that is behind it. -/
theorem cut_wordsOnto (seen : List (List Char)) (word cs : List Char)
    (hword : word = [] ∨ IsWord word.reverse) :
    ∃ ws, kept (wordsOnto seen word cs) = kept seen ++ ws ∧ Cut (word.reverse ++ cs) ws := by
  induction cs generalizing seen word with
  | nil => exact ⟨kept [word], kept_cons, by simpa using Cut.done.close hword (by simp)⟩
  | cons c rest ih =>
    rw [wordsOnto]
    by_cases hc : c = '_'
    · subst hc
      obtain ⟨ws, hws, hcut⟩ := ih (word :: seen) [] (.inl rfl)
      refine ⟨kept [word] ++ ws, ?_, hcut.gap.close hword (by simp [Breaks])⟩
      rw [if_pos (by simp), hws, kept_cons, List.append_assoc]
    rw [if_neg (by simpa using hc)]
    by_cases hupper : c.isUpper
    · obtain ⟨ws, hws, hcut⟩ := ih (word :: seen) [c] (.inr (isWord_singleton hc))
      refine ⟨kept [word] ++ ws, ?_, hcut.close hword (by simp [Breaks, hupper])⟩
      rw [if_pos hupper, hws, kept_cons, List.append_assoc]
    · have hmore : IsWord (c :: word).reverse := by
        rw [List.reverse_cons]
        rcases hword with rfl | hword
        · exact isWord_singleton hc
        · exact hword.append (by simp [Breaks, hc, hupper])
      obtain ⟨ws, hws, hcut⟩ := ih seen (c :: word) (.inr hmore)
      refine ⟨ws, by rw [if_neg hupper, hws], ?_⟩
      simpa using hcut

theorem cut_camelWords (name : String) :
    Cut name.toList ((camelWords name).map String.toList) := by
  obtain ⟨ws, hws, hcut⟩ := cut_wordsOnto [] [] name.toList (.inl rfl)
  have hwords : (camelWords name).map String.toList = ws := by
    rw [camelWords, List.map_map]
    simpa [kept, Function.comp_def] using hws
  rwa [hwords]

theorem cut_iff {name : String} :
    Cut name.toList ws ↔ ws = (camelWords name).map String.toList := by
  constructor
  · intro h
    exact h.unique (cut_camelWords name)
  · rintro rfl
    exact cut_camelWords name

/-! ## Verbs side by side -/

/-- A verb with a verb beside it. -/
def NextToVerb (words : List String) (v : String) : Prop :=
  v ∈ responsibilityVerbs ∧
    ∃ w ∈ responsibilityVerbs, [v, w] <:+: words ∨ [w, v] <:+: words

theorem NextToVerb.mem (h : NextToVerb words v) : v ∈ words := by
  obtain ⟨_, w, _, hpart | hpart⟩ := h
  · exact hpart.subset (by simp)
  · exact hpart.subset (by simp)

theorem pair_infix_cons {u s t : String} :
    [u, v] <:+: s :: t :: words ↔ (u = s ∧ v = t) ∨ [u, v] <:+: t :: words := by
  rw [List.infix_cons_iff, List.cons_prefix_cons, List.cons_prefix_cons]
  simp

theorem nextToVerb_cons {s t : String} :
    NextToVerb (s :: t :: words) v ↔
      (s ∈ responsibilityVerbs ∧ t ∈ responsibilityVerbs ∧ (v = s ∨ v = t)) ∨
        NextToVerb (t :: words) v := by
  simp only [NextToVerb, pair_infix_cons]
  constructor
  · rintro ⟨hv, w, hw, (⟨rfl, rfl⟩ | hpart) | ⟨rfl, rfl⟩ | hpart⟩
    · exact .inl ⟨hv, hw, .inl rfl⟩
    · exact .inr ⟨hv, w, hw, .inl hpart⟩
    · exact .inl ⟨hw, hv, .inr rfl⟩
    · exact .inr ⟨hv, w, hw, .inr hpart⟩
  · rintro (⟨hs, ht, rfl | rfl⟩ | ⟨hv, w, hw, hpart⟩)
    · exact ⟨hs, t, ht, .inl (.inl ⟨rfl, rfl⟩)⟩
    · exact ⟨ht, s, hs, .inr (.inl ⟨rfl, rfl⟩)⟩
    · exact ⟨hv, w, hw, hpart.imp .inr .inr⟩

theorem mem_verbPairs : v ∈ verbPairs words ↔ NextToVerb words v := by
  induction words with
  | nil => simp [verbPairs, NextToVerb]
  | cons s rest ih =>
    cases rest with
    | nil => simp [verbPairs, NextToVerb, List.infix_cons_iff]
    | cons t more =>
      rw [verbPairs, List.mem_append, ih, nextToVerb_cons]
      refine or_congr_left ?_
      by_cases hboth : s ∈ responsibilityVerbs ∧ t ∈ responsibilityVerbs
      · rw [if_pos (by simpa using hboth)]
        simp [hboth]
      · rw [if_neg (by simpa using hboth)]
        simpa using fun hs ht => absurd ⟨hs, ht⟩ hboth

/-- The verbs of a name are those beside a verb, unless it says `And`. -/
theorem mem_severalResponsibilities? {name : String}
    (h : severalResponsibilities? name = some verbs) :
    v ∈ verbs ↔
      if "And" ∈ camelWords name then v = "And" else NextToVerb (camelWords name) v := by
  rw [severalResponsibilities?] at h
  by_cases hand : "And" ∈ camelWords name
  · rw [if_pos (by simpa using hand), Option.some.injEq] at h
    rw [if_pos hand, ← h, List.mem_singleton]
  · rw [if_neg (by simpa using hand)] at h
    rw [if_neg hand, ← mem_verbPairs]
    cases hpairs : verbPairs (camelWords name) with
    | nil => simp [hpairs] at h
    | cons s rest =>
      simp only [hpairs, Option.some.injEq] at h
      rw [← h, mem_dropRepeats]

theorem isSome_severalResponsibilities? {name : String} :
    (severalResponsibilities? name).isSome ↔
      "And" ∈ camelWords name ∨ ∃ v, NextToVerb (camelWords name) v := by
  have hpairs : (∃ v, NextToVerb (camelWords name) v) ↔ verbPairs (camelWords name) ≠ [] := by
    simp only [← mem_verbPairs, ne_eq, List.eq_nil_iff_forall_not_mem, not_forall, not_not]
  rw [hpairs, severalResponsibilities?]
  by_cases hand : "And" ∈ camelWords name
  · simp [hand]
  · cases verbPairs (camelWords name) <;> simp [hand]

theorem exists_nextToVerb_iff :
    (∃ v, NextToVerb words v) ↔
      ∃ v ∈ responsibilityVerbs, ∃ w ∈ responsibilityVerbs, [v, w] <:+: words := by
  constructor
  · rintro ⟨v, hv, w, hw, hpart | hpart⟩
    · exact ⟨v, hv, w, hw, hpart⟩
    · exact ⟨w, hw, v, hv, hpart⟩
  · rintro ⟨v, hv, w, hw, hpart⟩
    exact ⟨v, hv, w, hw, .inl hpart⟩

/-- **The words of a name are all of it but its underscores, and it has several responsibilities
exactly if one of its words is `And` or two of them that stand side by side are verbs.**  Every verb
that is named is `And`, or a word of the name with a verb beside it. -/
theorem responsibilities_exact (name : String) :
    String.join (camelWords name) = String.ofList (name.toList.filter (· ≠ '_')) ∧
      (∀ w ∈ camelWords name, w ≠ "" ∧ ∀ c ∈ w.toList.tail, ¬ c.isUpper) ∧
      ((severalResponsibilities? name).isSome ↔
        "And" ∈ camelWords name ∨
          ∃ v ∈ responsibilityVerbs, ∃ w ∈ responsibilityVerbs, [v, w] <:+: camelWords name) ∧
      ∀ verbs, severalResponsibilities? name = some verbs →
        ∀ v ∈ verbs, v ∈ camelWords name ∧ (v = "And" ∨ NextToVerb (camelWords name) v) := by
  have hcut := cut_camelWords name
  refine ⟨?_, ?_, ?_, ?_⟩
  · rw [← String.toList_inj, String.toList_join, String.toList_ofList, ← hcut.flatten_eq,
      List.flatMap_def]
  · intro w hw
    have hword := hcut.isWord w.toList (List.mem_map_of_mem hw)
    exact ⟨by simpa using hword.ne_nil, hword.small⟩
  · rw [isSome_severalResponsibilities?, exists_nextToVerb_iff]
  · intro verbs h v hv
    rw [mem_severalResponsibilities? h] at hv
    by_cases hand : "And" ∈ camelWords name
    · rw [if_pos hand] at hv
      exact ⟨hv ▸ hand, .inl hv⟩
    · rw [if_neg hand] at hv
      exact ⟨hv.mem, .inr hv⟩

theorem responsibilities_exact_underscores :
    severalResponsibilities? "__Fetch_ParseStore__" = some ["Fetch", "Parse", "Store"] ∧
      ∀ v ∈ ["Fetch", "Parse", "Store"],
        v ∈ camelWords "__Fetch_ParseStore__" ∧
          (v = "And" ∨ NextToVerb (camelWords "__Fetch_ParseStore__") v) := by
  have hverbs : severalResponsibilities? "__Fetch_ParseStore__" =
      some ["Fetch", "Parse", "Store"] := by decide +kernel
  exact ⟨hverbs, (responsibilities_exact "__Fetch_ParseStore__").2.2.2 _ hverbs⟩

end AgentFlow.Lint
