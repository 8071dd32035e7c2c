import AgentFlow.Output.Interface
import AgentFlow.Proofs.Code.Phrase
import AgentFlow.Proofs.Output.Exchange

/-!
# Names and texts in generated code

What a specification puts into generated code as a name is read as a name, and what it puts into
quotes is read as a text, whatever its characters are.  Documentation strings are the exception: a
null character stands in them as it is, and the text breaks off there.

* `isText_quoted`: **any text is read back whole once it is quoted.**
* `isText_docString`, `inside_docText`: documentation is read back whole if it holds no null
  character.
* `WorkflowSpec.NullFree`: what a specification documents its code with holds none.
* `isClassName_flowClass`: **the name of the class of a flow is one that a class may have.**
* `isName_of_isClassName`, `isName_flowClass`, `isName_handler`, …: the names of classes, functions
  and tests are names of variables.
-/

namespace AgentFlow.Code

open Text Output

/-! ### Quoted texts -/

theorem escapeLength_single {c : Char} (hc : c ∈ ['"', '\\', 'b', 'f', 'n', 'r', 't'])
    (rest : List Char) : escapeLength ([c] ++ rest) = [c].length := by
  simp only [List.mem_cons, List.not_mem_nil, or_false] at hc
  rcases hc with rfl | rfl | rfl | rfl | rfl | rfl | rfl <;> rfl

theorem escapeLength_code {n : Nat} (hn : n < 32) (rest : List Char) :
    escapeLength (['u', '0', '0', hexDigit (n / 16), hexDigit (n % 16)] ++ rest) = 5 := by
  have hdigits : ∀ n < 32, ([hexDigit (n / 16), hexDigit (n % 16)].all fun d =>
      d.isDigit || ('a' ≤ d && d ≤ 'f') || ('A' ≤ d && d ≤ 'F')) = true := by decide
  have h := hdigits n hn
  simp only [List.all_cons, List.all_nil, Bool.and_true] at h
  simp [escapeLength, h]

/-- What stands for a character between quotes is read as part of the text. -/
theorem inside_quotedChar (c : Char) {cs : List Char} (h : Inside cs) :
    Inside (quotedChar c ++ cs) := by
  have hsingle {d : Char} (hd : d ∈ ['"', '\\', 'b', 'f', 'n', 'r', 't']) :
      Inside (['\\', d] ++ cs) :=
    .escape (escapeLength_single hd) (by revert hd; revert d; decide) h
  have hcode : c.toNat < 32 →
      '\n' ∉ ['u', '0', '0', hexDigit (c.toNat / 16), hexDigit (c.toNat % 16)] := by
    have hall : ∀ n < 32, '\n' ∉ ['u', '0', '0', hexDigit (n / 16), hexDigit (n % 16)] := by decide
    exact hall _
  simp only [quotedChar, beq_iff_eq]
  split
  · exact hsingle (by decide)
  split
  · exact hsingle (by decide)
  split
  · exact hsingle (by decide)
  split
  · exact hsingle (by decide)
  split
  · exact hsingle (by decide)
  split
  · exact hsingle (by decide)
  split
  · exact hsingle (by decide)
  split
  · next hlt => exact .escape (escapeLength_code hlt) (hcode hlt) h
  · next hquote hslash _ _ hbreak _ _ hcontrol =>
    exact .plain hquote hslash hbreak (fun hnull => hcontrol (hnull ▸ by decide)) h

theorem inside_quotedChars (cs : List Char) : Inside (quotedChars cs) := by
  induction cs with
  | nil => exact .nil
  | cons c cs ih => exact inside_quotedChar c ih

/-- **Any text is read back whole once it is quoted.** -/
theorem isText_quoted (s : String) : IsText (quoted s).toList :=
  ⟨false, quotedChars s.toList, inside_quotedChars _, by simp [quoted, closing]⟩

/-- Plain characters, none of which has a meaning of its own between quotes. -/
def isPlainText (s : String) : Bool :=
  s.toList.all fun c => c != '"' && c != '\\' && c != '\n' && c != '\x00'

/-- A text is plain if its characters are. -/
theorem isPlainText_ofList {cs : List Char}
    (h : (cs.all fun c => c != '"' && c != '\\' && c != '\n' && c != '\x00') = true) :
    isPlainText (String.ofList cs) = true := by
  rwa [isPlainText, String.toList_ofList]

theorem inside_of_isPlainText {s : String} (h : isPlainText s = true) : Inside s.toList := by
  rw [isPlainText] at h
  generalize s.toList = cs at h ⊢
  induction cs with
  | nil => exact .nil
  | cons c cs ih =>
    simp only [List.all_cons, Bool.and_eq_true, bne_iff_ne] at h
    obtain ⟨⟨⟨⟨hquote, hslash⟩, hbreak⟩, hnull⟩, hcs⟩ := h
    exact .plain hquote hslash hbreak hnull (ih (by simpa using hcs))

/-- No null character stands in the text. -/
def NullFree (s : String) : Prop := '\x00' ∉ s.toList

instance (s : String) : Decidable (NullFree s) := inferInstanceAs (Decidable ('\x00' ∉ s.toList))

theorem NullFree.collapse {s : String} (h : NullFree s) : NullFree (collapse s) := by
  intro hmem
  rcases mem_of_mem_intercalate hmem with hblank | ⟨_, hword, hmem⟩
  · exact absurd hblank (by decide)
  · obtain ⟨w, hw, rfl⟩ := List.mem_map.mp hword
    rw [String.toList_ofList] at hmem
    exact h (of_mem_splitWhere (List.mem_of_mem_filter hw) _ hmem).1

/-- What is written for a text as documentation is read as part of it. -/
theorem inside_docText {s : String} (h : NullFree s) : Inside (docText s).toList := by
  have hline := (oneLine_collapse s).1
  have hfree : '\x00' ∉ (collapse s).toList := h.collapse
  rw [docText, replaceChars, replaceChars, String.toList_ofList, String.toList_ofList]
  generalize (collapse s).toList = cs at hline hfree ⊢
  induction cs with
  | nil => exact .nil
  | cons c cs ih =>
    rw [List.mem_cons, not_or] at hline hfree
    have hrest := ih hline.2 hfree.2
    rw [List.flatMap_cons, List.flatMap_append]
    by_cases hslash : c = '\\'
    · subst hslash
      exact .escape (escapeLength_single (by decide)) (by decide) hrest
    · by_cases hquote : c = '"'
      · subst hquote
        exact .escape (escapeLength_single (by decide)) (by decide) hrest
      · simpa [hslash, hquote] using
          Inside.plain hquote hslash (Ne.symm hline.1) (Ne.symm hfree.1) hrest

theorem isText_docString {s : String} (h : Inside s.toList) : IsText (docString s).toList :=
  ⟨true, s.toList, h, by simp [docString, closing]⟩

/-! ### Names -/

theorem isIdentifierStart_of_isAlpha {c : Char} (h : c.isAlpha = true ∨ c = '_') :
    isIdentifierStart c = true := by
  have hname : isNameChar c = true := by
    rcases h with h | rfl
    · exact isNameChar_of_isAlpha h
    · rfl
  rw [isIdentifierStart, if_pos (toNat_lt_of_isNameChar hname)]
  simpa using h

theorem isIdentifier_of_nameChar {cs : List Char}
    (hstart : ∃ c ∈ cs.head?, c.isAlpha = true ∨ c = '_') (h : ∀ c ∈ cs, isNameChar c = true) :
    IsIdentifier cs := by
  obtain ⟨c, hc, hc'⟩ := hstart
  refine ⟨⟨c, hc, isIdentifierStart_of_isAlpha hc'⟩, fun d hd => ⟨?_, ?_⟩⟩
  · exact isIdentifierChar_of_isNameChar (h d hd)
  · exact ne_of_isNameChar (h d hd) (by decide)

/-- The words of the language hold no underscore, and none ends as the classes of flows do. -/
theorem codeKeywords_plain : ∀ k ∈ codeKeywords, '_' ∉ k.toList ∧ ¬ "Flow".toList <:+ k.toList ∧
    upper k ∉ httpMethods := by
  decide +kernel

theorem free_of_underscore {s : String} (h : '_' ∈ s.toList) : s ∉ codeKeywords := fun hs =>
  (codeKeywords_plain s hs).1 h

theorem isName_of_isClassName {s : String} (h : isClassName s = true) : IsName s where
  chars := by
    refine isIdentifier_of_nameChar ?_ (chars_of_isClassName h).2
    rw [isClassName, Bool.and_eq_true] at h
    cases hs : s.toList with
    | nil =>
      rw [hs] at h
      exact Bool.noConfusion h.1
    | cons c rest =>
      rw [hs, Bool.and_eq_true] at h
      exact ⟨c, rfl, by simpa using h.1.1⟩
  free := not_keyword_of_isClassName h

theorem isName_of_isFunctionName {s : String} (h : isFunctionName s = true) : IsName s := by
  rw [isFunctionName, Bool.and_eq_true] at h
  exact isName_of_isClassName h.1

/-- A name without separators starts with a letter. -/
theorem head_pascalCase (name : String) :
    ∃ c ∈ (pascalCase name).toList.head?, c.isAlpha = true := by
  have halphanum := alphanum_pascalCase name
  rw [pascalCase] at halphanum ⊢
  split at halphanum
  · exact ⟨'W', rfl, by decide⟩
  · next c rest hjoined =>
    split
    · exact ⟨'W', by rw [String.toList_append]; rfl, by decide⟩
    · next hdigit =>
      rw [if_neg hdigit, hjoined, List.forall_mem_cons] at halphanum
      refine ⟨c, by rw [hjoined]; rfl, ?_⟩
      simpa [Char.isAlphanum, hdigit] using halphanum.1

/-- **Whatever the name of a workflow is, the name of its class is one that a class may have.** -/
theorem isClassName_flowClass (w : WorkflowSpec) : isClassName w.flowClass = true := by
  obtain ⟨c, hc, halpha⟩ := head_pascalCase w.name
  have hfree : codeKeywords.contains w.flowClass = false := by
    rw [← Bool.not_eq_true, List.contains_iff_mem]
    refine fun hkeyword => (codeKeywords_plain _ hkeyword).2.1 ?_
    rw [WorkflowSpec.flowClass, String.toList_append]
    exact List.suffix_append _ _
  have hhead : w.flowClass.toList.head? = some c := by
    rw [WorkflowSpec.flowClass, String.toList_append, List.head?_append, hc]
    rfl
  have hchars := nameChar_flowClass w
  obtain ⟨rest, hrest⟩ := List.head?_eq_some_iff.mp hhead
  rw [hrest, List.forall_mem_cons] at hchars
  rw [isClassName, hfree, hrest]
  simpa [halpha] using hchars.2

theorem isName_flowClass (w : WorkflowSpec) : IsName w.flowClass :=
  isName_of_isClassName (isClassName_flowClass w)

/-! ### Handlers of requests -/

/-- The letters beyond the alphabet whose upper-case forms are letters of the alphabet. -/
def oddLetters : List Char := ['ı', 'ſ', 'ß', 'ﬀ', 'ﬁ', 'ﬂ', 'ﬃ', 'ﬄ', 'ﬅ', 'ﬆ']

theorem capital_of_ofNat {n : Nat} (h : (Char.ofNat n).isUpper = true) : 65 ≤ n ∧ n ≤ 90 := by
  have hval : 65 ≤ (Char.ofNat n).toNat ∧ (Char.ofNat n).toNat ≤ 90 := by
    obtain ⟨hlow, hhigh⟩ := of_decide_eq_true h
    exact ⟨UInt32.le_iff_toNat_le.mp hlow, UInt32.le_iff_toNat_le.mp hhigh⟩
  by_cases hvalid : n.isValidChar
  · have hself : (Char.ofNat n).toNat = n := by
      rw [Char.ofNat, dif_pos hvalid]
      rfl
    rwa [hself] at hval
  · rw [Char.ofNat, dif_neg hvalid] at h
    exact absurd h (by decide)

theorem isAlpha_of_toUpper {c : Char} (hlt : c.toNat < 128) (h : c.toUpper.isUpper = true) :
    c.isAlpha = true := by
  have hall : ∀ n < 128, (Char.ofNat n).toUpper.isUpper = true → (Char.ofNat n).isAlpha = true := by
    decide
  have hletter := hall _ hlt
  rw [Char.ofNat_toNat] at hletter
  exact hletter h

/-- A character with an upper-case form of several letters. -/
theorem mem_oddLetters_of_sequence {c : Char} {entry : Nat × List Nat}
    (hfind : upperSequences.find? (·.1 == c.toNat) = some entry)
    (h : ∀ n ∈ entry.2, (Char.ofNat n).isUpper = true) : c ∈ oddLetters := by
  have hall : ∀ x ∈ upperSequences.toList, (x.2.all fun n => 65 ≤ n && n ≤ 90) = true →
      Char.ofNat x.1 ∈ oddLetters := by decide +kernel
  have hcode : entry.1 = c.toNat := by simpa using Array.find?_some hfind
  have hcodes : (entry.2.all fun n => 65 ≤ n && n ≤ 90) = true := by
    rw [List.all_eq_true]
    intro n hn
    simpa using capital_of_ofNat (h n hn)
  have hodd := hall entry (Array.mem_def.mp (Array.mem_of_find?_eq_some hfind)) hcodes
  rwa [hcode, Char.ofNat_toNat] at hodd

/-- A character of a run of letters whose cases are equally far apart. -/
theorem mem_oddLetters_of_run {c : Char} {run : CaseRun} (hle : 128 ≤ c.toNat)
    (hfind : upperRuns.find? (·.covers c.toNat) = some run)
    (h : (Char.ofNat (c.toNat + run.shift).toNat).isUpper = true) : c ∈ oddLetters := by
  -- The alphabet is reached from runs of a single letter only.
  have hall : ∀ r ∈ upperRuns.toList, 128 ≤ r.last →
      90 < r.first + r.shift ∨ r.first = r.last ∧ Char.ofNat r.first ∈ oddLetters := by
    decide +kernel
  have hcovers : run.covers c.toNat = true := by simpa using Array.find?_some hfind
  rw [CaseRun.covers, Bool.and_eq_true, Bool.and_eq_true, decide_eq_true_eq,
    decide_eq_true_eq] at hcovers
  have hcapital := capital_of_ofNat h
  rcases hall run (Array.mem_def.mp (Array.mem_of_find?_eq_some hfind)) (by omega) with
    hbeyond | ⟨hone, hodd⟩
  · omega
  · rwa [show run.first = c.toNat by omega, Char.ofNat_toNat] at hodd

/-- A letter has its upper-case form in the alphabet only if it is one of few. -/
theorem mem_of_upperChar {c : Char} (h : ∀ d ∈ upperChar c, d.isUpper = true) :
    c.isAlpha = true ∨ c ∈ oddLetters := by
  rw [upperChar] at h
  by_cases hlt : c.toNat < 128
  · rw [if_pos hlt] at h
    exact .inl (isAlpha_of_toUpper hlt (h _ List.mem_cons_self))
  · rw [if_neg hlt] at h
    cases hfind : upperSequences.find? (·.1 == c.toNat) with
    | some entry =>
      rw [hfind] at h
      exact .inr (mem_oddLetters_of_sequence hfind fun n hn => h _ (List.mem_map_of_mem hn))
    | none =>
      rw [hfind] at h
      have hshift := h _ List.mem_cons_self
      rw [shiftBy] at hshift
      cases hrun : upperRuns.find? (·.covers c.toNat) with
      | some run =>
        rw [hrun] at hshift
        exact .inr (mem_oddLetters_of_run (Nat.le_of_not_lt hlt) hrun hshift)
      | none =>
        rw [hrun] at hshift
        exact .inl (Bool.or_eq_true_iff.mpr (.inl hshift))

/-- The letters beyond the alphabet stay as they are in lower case. -/
theorem lowerChar_oddLetters : ∀ c ∈ oddLetters, c ≠ 'Σ' ∧ lowerChar c = [c] ∧
    isIdentifierStart c = true ∧ (isIdentifierChar c = true ∧ c ≠ '\n') := by
  decide +kernel

/-- The lower-case form of such a letter is a single letter, with the same upper-case form. -/
theorem lowerChar_of_upper {c : Char} (h : ∀ d ∈ upperChar c, d.isUpper = true) :
    c ≠ 'Σ' ∧ ∃ d, lowerChar c = [d] ∧ isIdentifierStart d = true ∧
      (isIdentifierChar d = true ∧ d ≠ '\n') ∧ upperChar d = upperChar c := by
  rcases mem_of_upperChar h with halpha | hodd
  · have hall : ∀ n < 128, (Char.ofNat n).isAlpha = true → Char.ofNat n ≠ 'Σ' ∧
        lowerChar (Char.ofNat n) = [(Char.ofNat n).toLower] ∧
          isIdentifierStart (Char.ofNat n).toLower = true ∧
            (isIdentifierChar (Char.ofNat n).toLower = true ∧ (Char.ofNat n).toLower ≠ '\n') ∧
              upperChar (Char.ofNat n).toLower = upperChar (Char.ofNat n) := by
      decide +kernel
    have := hall c.toNat (toNat_lt_of_isNameChar (isNameChar_of_isAlpha halpha))
    rw [Char.ofNat_toNat] at this
    exact ⟨(this halpha).1, c.toLower, (this halpha).2⟩
  · obtain ⟨hsigma, hlower, hstart, hchar⟩ := lowerChar_oddLetters c hodd
    exact ⟨hsigma, c, hlower, hstart, hchar, rfl⟩

/-- The lower-case form of a word with an upper-case form in the alphabet. -/
theorem lowerAfter_of_upper {cs : List Char} (h : ∀ c ∈ cs, ∀ d ∈ upperChar c, d.isUpper = true)
    (before : List Char) : (lowerAfter before cs).length = cs.length ∧
      (∀ d ∈ lowerAfter before cs, isIdentifierStart d = true ∧ isIdentifierChar d = true ∧
        d ≠ '\n') ∧
        (lowerAfter before cs).flatMap upperChar = cs.flatMap upperChar := by
  induction cs generalizing before with
  | nil => exact ⟨rfl, fun d hd => absurd hd List.not_mem_nil, rfl⟩
  | cons c cs ih =>
    rw [List.forall_mem_cons] at h
    obtain ⟨hsigma, d, hlower, hstart, hchar, hupper⟩ := lowerChar_of_upper h.1
    obtain ⟨hlength, hchars, hback⟩ := ih h.2 (c :: before)
    have hstep : lowerAfter before (c :: cs) = d :: lowerAfter (c :: before) cs := by
      rw [lowerAfter]
      simp only [beq_iff_eq, hsigma, if_false, hlower, List.singleton_append]
    rw [hstep]
    refine ⟨by rw [List.length_cons, List.length_cons, hlength],
      List.forall_mem_cons.mpr ⟨⟨hstart, hchar⟩, hchars⟩, ?_⟩
    rw [List.flatMap_cons, List.flatMap_cons, hupper, hback]

/-- Letters and digits are lowered one by one. -/
theorem toList_lower {w : String} (h : ∀ c ∈ w.toList, c.isAlphanum = true) :
    (lower w).toList = w.toList.map Char.toLower := by
  rw [lower, String.toList_ofList]
  generalize w.toList = cs at h ⊢
  generalize [] = before
  induction cs generalizing before with
  | nil => rfl
  | cons c cs ih =>
    rw [List.forall_mem_cons] at h
    have hlt : c.toNat < 128 := toNat_lt_of_isNameChar (isNameChar_of_isAlphanum h.1)
    have hsigma : c ≠ 'Σ' := by
      rintro rfl
      exact absurd hlt (by decide)
    rw [lowerAfter]
    simp only [beq_iff_eq, hsigma, if_false, lowerChar_ascii hlt, List.singleton_append]
    rw [ih h.2, List.map_cons]

section Endpoint

variable {e : EndpointSpec} (h : e.Valid)

include h

/-- The method of a request in lower case is a word that is the method again in upper case. -/
theorem lowerMethod_cases : e.lowerMethod.toList ≠ [] ∧
    (∀ d ∈ e.lowerMethod.toList, isIdentifierStart d = true ∧ isIdentifierChar d = true ∧
      d ≠ '\n') ∧ upper e.lowerMethod = e.upperMethod := by
  have hcapitals : ∀ m ∈ httpMethods, m.toList ≠ [] ∧ ∀ d ∈ m.toList, d.isUpper = true := by decide
  have hmethod : upper e.method ∈ httpMethods := h.method
  obtain ⟨hne, hall⟩ := hcapitals _ hmethod
  rw [upper, String.toList_ofList] at hne hall
  obtain ⟨hlength, hchars, hback⟩ := lowerAfter_of_upper
    (fun c hc d hd => hall d (List.mem_flatMap.mpr ⟨c, hc, hd⟩)) []
  rw [EndpointSpec.lowerMethod, EndpointSpec.upperMethod, lower, upper, upper,
    String.toList_ofList]
  refine ⟨fun hnil => ?_, hchars, by rw [hback]⟩
  rw [hnil] at hlength
  rw [List.eq_nil_of_length_eq_zero hlength.symm] at hne
  exact hne rfl

theorem upper_lowerMethod : upper e.lowerMethod ∈ httpMethods := by
  rw [(lowerMethod_cases h).2.2]
  exact h.method

theorem isIdentifier_lowerMethod : IsIdentifier e.lowerMethod.toList := by
  obtain ⟨hne, hchars, -⟩ := lowerMethod_cases h
  obtain ⟨c, cs, hcs⟩ := List.exists_cons_of_ne_nil hne
  exact ⟨⟨c, by rw [hcs]; rfl, (hchars c (hcs ▸ List.mem_cons_self)).1⟩,
    fun d hd => (hchars d hd).2⟩

theorem isName_lowerMethod : IsName e.lowerMethod where
  chars := isIdentifier_lowerMethod h
  free hs := (codeKeywords_plain _ hs).2.2 (upper_lowerMethod h)

omit h in
theorem nameChar_slug (e : EndpointSpec) :
    ∃ slug : String, e.handler = e.lowerMethod ++ "_" ++ slug ∧
    ∀ c ∈ slug.toList, isNameChar c = true := by
  refine ⟨_, rfl, ?_⟩
  split
  · decide
  · intro c hc
    rcases mem_of_mem_intercalate hc with hc | ⟨w, hw, hc⟩
    · exact (by decide : ∀ c ∈ "_".toList, isNameChar c = true) c hc
    · obtain ⟨v, hv, rfl⟩ := List.mem_map.mp hw
      have hchars := alphanum_of_mem_alphanumericWords hv
      rw [toList_lower hchars] at hc
      obtain ⟨d, hd, rfl⟩ := List.mem_map.mp hc
      exact isNameChar_toLower (isNameChar_of_isAlphanum (hchars d hd))

theorem isName_handler : IsName e.handler := by
  obtain ⟨slug, hslug, hchars⟩ := nameChar_slug e
  obtain ⟨⟨c, hc, hstart⟩, hmethod⟩ := isIdentifier_lowerMethod h
  rw [hslug]
  refine ⟨⟨⟨c, ?_, hstart⟩, ?_⟩, free_of_underscore (by simp)⟩
  · rw [String.toList_append, String.toList_append, List.append_assoc, List.head?_append, hc]
    rfl
  · rw [String.toList_append, String.toList_append]
    refine List.forall_mem_append.mpr ⟨List.forall_mem_append.mpr ⟨hmethod, by decide⟩,
      fun d hd => ?_⟩
    exact ⟨isIdentifierChar_of_isNameChar (hchars d hd), ne_of_isNameChar (hchars d hd) (by decide)⟩

end Endpoint

/-- The endpoints that are served are valid, also the one that is served when none is stated. -/
theorem valid_servedEndpoints {w : WorkflowSpec} (h : w.Valid) :
    ∀ e ∈ w.servedEndpoints, e.Valid := by
  rw [WorkflowSpec.servedEndpoints]
  split
  · intro e he
    obtain rfl := List.mem_singleton.mp he
    exact ⟨(by decide : upper "POST" ∈ httpMethods), (by decide : "/run".toList.head? = some '/')⟩
  · exact h.endpoints

/-! ### Tests -/

/-- Whatever may go on in a name may follow the start of the name of a test. -/
theorem isName_test {s : String} (h : ∀ c ∈ s.toList, isIdentifierChar c = true ∧ c ≠ '\n') :
    IsName ("test_" ++ s) where
  chars := by
    rw [String.toList_append]
    exact ⟨⟨'t', rfl, by decide⟩, List.forall_mem_append.mpr ⟨by decide, h⟩⟩
  free := free_of_underscore (by simp)

theorem isName_nodeTest {n : NodeSpec} (h : IsNodeName n.name) {s : String}
    (hs : ∀ c ∈ s.toList, isNameChar c = true) : IsName ("test_" ++ (snakeCase n.name ++ s)) := by
  have hchars : ∀ c ∈ (snakeCase n.name ++ s).toList, isNameChar c = true := by
    rw [String.toList_append, List.forall_mem_append]
    exact ⟨nameChar_snakeCase h, hs⟩
  exact isName_test fun c hc =>
    ⟨isIdentifierChar_of_isNameChar (hchars c hc), ne_of_isNameChar (hchars c hc) (by decide)⟩

end AgentFlow.Code

namespace AgentFlow.WorkflowSpec

open Code

variable {w : WorkflowSpec}

/-! ### Documentation -/

/-- What a specification documents its code with holds no null character.  Endpoints are documented
only where they are served. -/
structure NullFree (w : WorkflowSpec) : Prop where
  name : Code.NullFree w.name
  nodes : ∀ n ∈ w.nodes, Code.NullFree n.summary
  utilities : ∀ u ∈ w.utilities, Code.NullFree u.summary
  endpoints : w.fastApi = true → ∀ e ∈ w.endpoints, Code.NullFree e.summary

theorem NullFree.servedEndpoints (h : w.NullFree) (hapi : w.fastApi = true) :
    ∀ e ∈ w.servedEndpoints, Code.NullFree e.summary := by
  rw [WorkflowSpec.servedEndpoints]
  split
  · have hsummary : (EndpointSpec.run w.name).summary = "Run the " ++ w.name ++ " workflow" := by
      simp [EndpointSpec.run, EndpointSpec.summary]
    rw [List.forall_mem_singleton, hsummary, Code.NullFree, String.toList_append,
      String.toList_append, List.mem_append, List.mem_append, not_or, not_or]
    exact ⟨⟨by decide, h.name⟩, by decide⟩
  · exact h.endpoints hapi

end AgentFlow.WorkflowSpec
