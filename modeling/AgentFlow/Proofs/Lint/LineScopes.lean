import AgentFlow.Lint.LineRules
import AgentFlow.Proofs.Text.Lines
import Mathlib.Data.List.Induction

/-!
# Scopes of lines

The rules on lines follow one class and one method by indentation.  `LineScope.next` is what one
line does to the scope, `LineScope.afterLines` what several lines do, and every finding on a text
comes from one of its lines in the scope that the lines before it leave.

* `checkLines_append`: **blocks at the margin are checked on their own**: no class and no method
  that a text leaves open reaches a text that starts at the margin.
* `InnermostClass`, `MethodAround`: the class and the method around a line, by the indentation of
  all lines between.
* `loop_found_iff`: a loop in a method that computes a node is found **exactly when no other class
  opens between the header of the class around it and the loop.**
-/

namespace AgentFlow.Lint

open Text

/-- The same finding further down. -/
def Violation.shift (k : Nat) (v : Violation) : Violation := { v with line := v.line + k }

namespace LineScope

variable {path : String} {s : LineScope} {l : List Char}

/-! ### One line -/

def enter (s : LineScope) (name : String) (indent : Nat) : LineScope :=
  if s.cls?.isSome && s.method?.isNone then { s with method? := some ⟨name, indent⟩ } else s

def next (s : LineScope) (line : List Char) : LineScope :=
  if !isCode line then s
  else
    match classHeader? line, functionHeader? line with
    | some h, _ => ofClass h (indentWidth line)
    | none, some name => (s.close (indentWidth line)).enter name (indentWidth line)
    | none, none => s.close (indentWidth line)

def found (path : String) (s : LineScope) (number : Nat) (line : List Char) : List Violation :=
  if isCode line && (classHeader? line).isNone && (functionHeader? line).isNone then
    (s.close (indentWidth line)).findings path number line
  else []

theorem step_eq (n : Nat) : s.step path n l = (s.next l, s.found path n l) := by
  rw [step, next, found]
  cases isCode l with
  | false => rfl
  | true =>
    cases classHeader? l with
    | some h => rfl
    | none =>
      cases functionHeader? l with
      | none => rfl
      | some name =>
        have henter : ∀ t : LineScope,
            (if t.cls?.isSome && t.method?.isNone then
              ({ t with method? := some ⟨name, indentWidth l⟩ }, [])
            else (t, ([] : List Violation))) = (t.enter name (indentWidth l), []) := by
          intro t
          rw [enter]
          split <;> rfl
        exact henter (s.close (indentWidth l))

theorem next_of_not_code (h : isCode l = false) : s.next l = s := by simp [next, h]

theorem found_of_not_code (h : isCode l = false) (n : Nat) : s.found path n l = [] := by
  simp [found, h]

/-- At the margin nothing stays open. -/
theorem close_zero : s.close 0 = {} := by
  obtain ⟨cls, method⟩ := s
  cases cls <;> cases method <;> simp [close]

/-! ### Several lines -/

def afterLines (s : LineScope) (ls : List (List Char)) : LineScope := ls.foldl next s

@[simp] theorem afterLines_nil : s.afterLines [] = s := rfl

@[simp] theorem afterLines_cons (ls : List (List Char)) :
    s.afterLines (l :: ls) = (s.next l).afterLines ls := rfl

theorem afterLines_append (as bs : List (List Char)) :
    s.afterLines (as ++ bs) = (s.afterLines as).afterLines bs := List.foldl_append

theorem run_cons (n : Nat) (ls : List (List Char)) :
    run path s n (l :: ls) = s.found path n l ++ run path (s.next l) (n + 1) ls := by
  rw [run, step_eq]

theorem run_append (as bs : List (List Char)) (n : Nat) :
    run path s n (as ++ bs) = run path s n as ++ run path (s.afterLines as) (n + as.length) bs := by
  induction as generalizing s n with
  | nil => rfl
  | cons a as ih =>
    rw [List.cons_append, run_cons, run_cons, ih, afterLines_cons, List.append_assoc,
      List.length_cons, Nat.add_right_comm, Nat.add_assoc]

theorem findings_shift (n k : Nat) :
    s.findings path (n + k) l = (s.findings path n l).map (·.shift k) := by
  unfold findings
  cases s.cls? with
  | none => rfl
  | some c =>
    dsimp only
    split
    · rfl
    · rw [List.map_append]
      congr 1
      · split <;> rfl
      · split <;> rfl

theorem found_shift (n k : Nat) :
    s.found path (n + k) l = (s.found path n l).map (·.shift k) := by
  unfold found
  split
  · exact findings_shift n k
  · rfl

theorem run_shift (ls : List (List Char)) (n k : Nat) :
    run path s (n + k) ls = (run path s n ls).map (·.shift k) := by
  induction ls generalizing s n with
  | nil => rfl
  | cons l ls ih =>
    rw [run_cons, run_cons, List.map_append, found_shift, ← ih, Nat.add_right_comm]

/-- Lines whose first code stands at the margin do not depend on what was open before them. -/
theorem run_of_margin {ls : List (List Char)} (h : ∀ l ∈ ls.find? isCode, indentWidth l = 0)
    (n : Nat) : run path s n ls = run path {} n ls := by
  induction ls generalizing n with
  | nil => rfl
  | cons l ls ih =>
    rw [run_cons, run_cons]
    cases hcode : isCode l with
    | false =>
      rw [List.find?_cons_of_neg (by simp [hcode])] at h
      rw [found_of_not_code hcode, found_of_not_code hcode, next_of_not_code hcode,
        next_of_not_code hcode, ih h]
    | true =>
      have hzero : indentWidth l = 0 := h l (by rw [List.find?_cons_of_pos hcode]; rfl)
      have hnext : s.next l = ({} : LineScope).next l := by simp [next, hcode, hzero, close_zero]
      have hfound : s.found path n l = ({} : LineScope).found path n l := by
        simp [found, hzero, close_zero]
      rw [hnext, hfound]

end LineScope

/-! ### Texts one after the other -/

theorem linesOf_append {as : List Char} (h : as = [] ∨ as.getLast? = some '\n') (bs : List Char) :
    linesOf (as ++ bs) = linesOf as ++ linesOf bs := by
  rcases h with rfl | h
  · rfl
  · obtain ⟨cs, rfl⟩ := List.getLast?_eq_some_iff.mp h
    rw [List.append_assoc, List.singleton_append, linesOf_append_newline, linesOf_append_newline,
      List.append_assoc]
    rfl

/-- **Blocks at the margin are checked on their own.** -/
theorem checkLines_append (path : String) {a b : String}
    (ha : a = "" ∨ a.toList.getLast? = some '\n')
    (hb : ∀ l ∈ (linesOf b.toList).find? isCode, indentWidth l = 0) :
    checkLines path (a ++ b) =
      checkLines path a ++ (checkLines path b).map (·.shift (linesOf a.toList).length) := by
  have hlines : linesOf (a ++ b).toList = linesOf a.toList ++ linesOf b.toList := by
    rw [String.toList_append]
    refine linesOf_append (ha.imp (fun h => ?_) id) _
    rw [h]
    rfl
  rw [checkLines, checkLines, checkLines, hlines, LineScope.run_append, LineScope.run_of_margin hb,
    LineScope.run_shift]

theorem checkLines_append_openMethod :
    checkLines "nodes.py" ("class Load(Node):\n    def exec(self, items):\n" ++
        "# next\nclass Sum(Node):\n    def exec(self, xs):\n        for x in xs:\n") =
      checkLines "nodes.py" "class Load(Node):\n    def exec(self, items):\n" ++
        (checkLines "nodes.py"
          "# next\nclass Sum(Node):\n    def exec(self, xs):\n        for x in xs:\n").map
            (·.shift 2) :=
  checkLines_append "nodes.py" (.inr (by decide)) (by decide)

/-! ### Forms of lines -/

section Forms

variable {l : List Char}

theorem dropBlank_of_not_code (h : isCode l = false) :
    dropBlank l = [] ∨ ∃ cs, dropBlank l = '#' :: cs := by
  unfold isCode at h
  cases hl : dropBlank l with
  | nil => exact .inl rfl
  | cons c cs =>
    rw [hl] at h
    obtain rfl : c = '#' := by simpa using h
    exact .inr ⟨cs, rfl⟩

theorem isCode_of_classHeader? {h : ClassHeader} (hl : classHeader? l = some h) :
    isCode l = true := by
  by_contra hcode
  rw [classHeader?] at hl
  obtain hnil | ⟨cs, hcs⟩ := dropBlank_of_not_code (Bool.eq_false_iff.mpr hcode)
  · rw [hnil] at hl
    exact absurd hl (by simp [afterWord?])
  · rw [hcs] at hl
    exact absurd hl (by simp [afterWord?])

theorem isCode_of_functionHeader? {name : String} (hl : functionHeader? l = some name) :
    isCode l = true := by
  by_contra hcode
  rw [functionHeader?] at hl
  obtain hnil | ⟨cs, hcs⟩ := dropBlank_of_not_code (Bool.eq_false_iff.mpr hcode)
  · rw [hnil] at hl
    exact absurd hl (by simp [afterWord?])
  · rw [hcs] at hl
    exact absurd hl (by simp [afterWord?])

/-- A loop opens neither a class nor a function. -/
theorem plain_of_isForLoop (h : isForLoop l = true) :
    isCode l = true ∧ classHeader? l = none ∧ functionHeader? l = none := by
  rw [isForLoop, Bool.and_eq_true] at h
  obtain ⟨cs, hcs⟩ := List.isPrefixOf_iff_prefix.mp h.1
  have hdrop : dropBlank l = 'f' :: 'o' :: 'r' :: cs := hcs.symm
  refine ⟨?_, ?_, ?_⟩
  · rw [isCode, hdrop]
    rfl
  · rw [classHeader?, hdrop]
    rfl
  · rw [functionHeader?, hdrop]
    rfl

end Forms

/-! ### Scopes by indentation -/

/-- All code on the lines is indented further. -/
def Deeper (indent : Nat) (ls : List (List Char)) : Prop :=
  ∀ l ∈ ls, isCode l = true → indent < indentWidth l

instance (indent : Nat) (ls : List (List Char)) : Decidable (Deeper indent ls) :=
  inferInstanceAs (Decidable (∀ l ∈ ls, isCode l = true → indent < indentWidth l))

theorem deeper_append {i : Nat} {as bs : List (List Char)} :
    Deeper i (as ++ bs) ↔ Deeper i as ∧ Deeper i bs := List.forall_mem_append

theorem deeper_cons {i : Nat} {l : List Char} {ls : List (List Char)} :
    Deeper i (l :: ls) ↔ (isCode l = true → i < indentWidth l) ∧ Deeper i ls := List.forall_mem_cons

theorem Deeper.mono {i j : Nat} {ls : List (List Char)} (h : Deeper j ls) (hij : i < j) :
    Deeper i ls := fun l hl hcode => Nat.lt_trans hij (h l hl hcode)

/-- A header reaches a line: no code between, nor the line, is indented as little as the header. -/
def Encloses (header : List Char) (between : List (List Char)) (line : List Char) : Prop :=
  Deeper (indentWidth header) (between ++ [line])

instance (header line : List Char) (between : List (List Char)) :
    Decidable (Encloses header between line) :=
  inferInstanceAs (Decidable (Deeper _ _))

/-- The innermost class around a line. -/
structure InnermostClass (h : ClassHeader) (header : List Char) (between : List (List Char))
    (line : List Char) : Prop where
  opens : classHeader? header = some h
  encloses : Encloses header between line
  innermost : ∀ other after, other :: after <:+ between → classHeader? other ≠ none →
    ¬Encloses other after line

/-- The method around a line, where `before` stands between the header of its class and its own:
functions inside it are part of it. -/
structure MethodAround (name : String) (before : List (List Char)) (header : List Char)
    (between : List (List Char)) (line : List Char) : Prop where
  opens : functionHeader? header = some name
  encloses : Encloses header between line
  outermost : ∀ other after, other :: after <:+ before → functionHeader? other ≠ none →
    ¬Encloses other (after ++ header :: between) line

namespace LineScope

variable {path : String} {s : LineScope} {l line : List Char} {ls : List (List Char)}

theorem cls?_close (i : Nat) : (s.close i).cls? = s.cls?.filter (·.indent < i) := by
  obtain ⟨cls, method⟩ := s
  rw [close]
  cases cls with
  | none =>
    rw [if_neg (by simp)]
    split <;> rfl
  | some c =>
    by_cases hc : c.indent < i
    · have hkept : (some c).filter (·.indent < i) = some c := by simp [Option.filter_some, hc]
      rw [if_neg (by simpa using hc), hkept]
      split <;> rfl
    · rw [if_pos (by simpa using hc), Option.filter_some, if_neg (by simpa using hc)]

theorem method?_close {i : Nat} (h : ∀ c ∈ s.cls?, c.indent < i) :
    (s.close i).method? = s.method?.filter (·.indent < i) := by
  obtain ⟨cls, method⟩ := s
  have hcls : (cls.any fun c => i ≤ c.indent) = false := by
    cases cls with
    | none => rfl
    | some c => simpa using h c rfl
  rw [close, hcls, if_neg Bool.false_ne_true]
  cases method with
  | none => rfl
  | some m =>
    by_cases hm : m.indent < i
    · rw [if_neg (by simpa using hm), Option.filter_some, if_pos (by simpa using hm)]
    · rw [if_pos (by simpa using hm), Option.filter_some, if_neg (by simpa using hm)]

theorem cls?_enter (name : String) (i : Nat) : (s.enter name i).cls? = s.cls? := by
  unfold enter
  split <;> rfl

/-- A class header starts a scope of its own, whatever was open. -/
theorem next_of_classHeader? {h : ClassHeader} (hl : classHeader? l = some h) :
    s.next l = ofClass h (indentWidth l) := by
  rw [next, isCode_of_classHeader? hl, hl]
  rfl

theorem cls?_next (hcode : isCode l = true) (hclass : classHeader? l = none) :
    (s.next l).cls? = s.cls?.filter (·.indent < indentWidth l) := by
  rw [next, hcode, hclass]
  cases functionHeader? l with
  | none => exact cls?_close _
  | some name => exact (cls?_enter _ _).trans (cls?_close _)

/-- **Among lines that open no class the class stays open exactly as long as all code is indented
further.** -/
theorem cls?_afterLines {c : ClassScope} (hls : ∀ l ∈ ls, classHeader? l = none) :
    (s.afterLines ls).cls? = some c ↔ s.cls? = some c ∧ Deeper c.indent ls := by
  induction ls generalizing s with
  | nil => simp [Deeper]
  | cons l ls ih =>
    rw [List.forall_mem_cons] at hls
    rw [afterLines_cons, ih hls.2, deeper_cons]
    cases hcode : isCode l with
    | false => simp [next_of_not_code hcode]
    | true =>
      rw [cls?_next hcode hls.1, Option.filter_eq_some_iff]
      simp [and_assoc]

/-- What a line that opens no class does to the method of an open class. -/
theorem method?_next {c : ClassScope} (hcls : s.cls? = some c) (hcode : isCode l = true)
    (hclass : classHeader? l = none) (hc : c.indent < indentWidth l) :
    (s.next l).method? = (s.method?.filter (·.indent < indentWidth l)).or
      ((functionHeader? l).map (⟨·, indentWidth l⟩)) := by
  have hopen : ∀ d ∈ s.cls?, d.indent < indentWidth l := by
    intro d hd
    rw [hcls] at hd
    exact Option.some.inj hd ▸ hc
  have hstays : (s.close (indentWidth l)).cls? = some c := by
    rw [cls?_close, hcls, Option.filter_some, if_pos (by simpa using hc)]
  rw [next, hcode, hclass]
  cases functionHeader? l with
  | none => simp [method?_close hopen]
  | some name =>
    change ((s.close (indentWidth l)).enter name (indentWidth l)).method? = _
    rw [enter, hstays, ← method?_close hopen]
    cases hm : (s.close (indentWidth l)).method? with
    | none => simp
    | some m => simp [hm]

/-- **A method that is open was opened by a line that encloses all code since.** -/
theorem exists_of_method?_afterLines {c : ClassScope} {m : MethodScope} (hcls : s.cls? = some c)
    (hnone : s.method? = none) (hls : ∀ l ∈ ls, classHeader? l = none)
    (hdeeper : Deeper c.indent ls) (hm : (s.afterLines ls).method? = some m) :
    ∃ first header after, ls = first ++ header :: after ∧ functionHeader? header = some m.name ∧
      indentWidth header = m.indent ∧ Deeper m.indent after := by
  induction ls using List.reverseRecOn with
  | nil => exact absurd (hnone.symm.trans hm) (by simp)
  | append_singleton ls l ih =>
    rw [List.forall_mem_append, List.forall_mem_singleton] at hls
    rw [deeper_append] at hdeeper
    have hopen : (s.afterLines ls).cls? = some c := (cls?_afterLines hls.1).mpr ⟨hcls, hdeeper.1⟩
    rw [afterLines_append, afterLines_cons, afterLines_nil] at hm
    -- a method that was open before the line
    have hkept : (s.afterLines ls).method? = some m → (isCode l = true → m.indent < indentWidth l) →
        ∃ first header after, ls ++ [l] = first ++ header :: after ∧
          functionHeader? header = some m.name ∧ indentWidth header = m.indent ∧
            Deeper m.indent after := by
      intro hbefore hl
      obtain ⟨first, header, after, rfl, hname, hindent, hafter⟩ := ih hls.1 hdeeper.1 hbefore
      refine ⟨first, header, after ++ [l], by simp, hname, hindent, ?_⟩
      exact deeper_append.mpr ⟨hafter, deeper_cons.mpr ⟨hl, by simp [Deeper]⟩⟩
    cases hcode : isCode l with
    | false =>
      rw [next_of_not_code hcode] at hm
      exact hkept hm fun h => absurd h (by simp [hcode])
    | true =>
      rw [method?_next hopen hcode hls.2 ((deeper_cons.mp hdeeper.2).1 hcode),
        Option.or_eq_some_iff, Option.filter_eq_some_iff] at hm
      obtain ⟨hbefore, hl⟩ | ⟨-, hnew⟩ := hm
      · exact hkept hbefore fun _ => by simpa using hl
      · obtain ⟨name, hname, rfl⟩ := Option.map_eq_some_iff.mp hnew
        exact ⟨ls, l, [], rfl, hname, rfl, by simp [Deeper]⟩

/-- An open method stays open among lines whose code is indented further. -/
theorem method?_afterLines {c : ClassScope} {m : MethodScope} (hcls : s.cls? = some c)
    (hm : s.method? = some m) (hls : ∀ l ∈ ls, classHeader? l = none) (hc : Deeper c.indent ls)
    (hdeeper : Deeper m.indent ls) : (s.afterLines ls).method? = some m := by
  induction ls generalizing s with
  | nil => exact hm
  | cons l ls ih =>
    rw [List.forall_mem_cons] at hls
    rw [deeper_cons] at hc hdeeper
    have hnext : (s.next l).cls? = some c :=
      (@cls?_afterLines s [l] c (by simpa using hls.1)).mpr
        ⟨hcls, deeper_cons.mpr ⟨hc.1, by simp [Deeper]⟩⟩
    rw [afterLines_cons]
    refine ih hnext ?_ hls.2 hc.2 hdeeper.2
    cases hcode : isCode l with
    | false => rwa [next_of_not_code hcode]
    | true =>
      rw [method?_next hcls hcode hls.1 (hc.1 hcode), hm, Option.filter_some,
        if_pos (by simpa using hdeeper.1 hcode)]
      rfl

/-! ### The scope of a line -/

/-- What stands before the last line that satisfies a condition, the line, and what follows it. -/
theorem exists_last {p : List Char → Prop} (h : ∃ l ∈ ls, p l) :
    ∃ before l after, ls = before ++ l :: after ∧ p l ∧ ∀ m ∈ after, ¬p m := by
  induction ls with
  | nil => exact absurd h (by simp)
  | cons l ls ih =>
    by_cases hls : ∃ m ∈ ls, p m
    · obtain ⟨before, m, after, rfl, hm, hafter⟩ := ih hls
      exact ⟨l :: before, m, after, rfl, hm, hafter⟩
    · have hnone : ∀ m ∈ ls, ¬p m := fun m hm hp => hls ⟨m, hm, hp⟩
      obtain ⟨m, hm, hp⟩ := h
      rcases List.mem_cons.mp hm with rfl | hm
      · exact ⟨[], m, ls, rfl, hp, hnone⟩
      · exact absurd hp (hnone m hm)

variable {h : ClassHeader} {header : List Char} {between : List (List Char)}

/-- **The class around a line is followed if no other class opens in between.** -/
theorem cls?_of_innermost (hclass : InnermostClass h header between line)
    (hline : isCode line = true) (hnone : ∀ l ∈ between, classHeader? l = none) :
    (((s.next header).afterLines between).close (indentWidth line)).cls? =
      (ofClass h (indentWidth header)).cls? := by
  obtain ⟨hbetween, hlast⟩ := deeper_append.mp hclass.encloses
  rw [next_of_classHeader? hclass.opens, cls?_close, (cls?_afterLines hnone).mpr ⟨rfl, hbetween⟩,
    Option.filter_some]
  exact if_pos (by simpa using (deeper_cons.mp hlast).1 hline)

/-- **It is lost if another class opens in between**, which has ended before the line. -/
theorem cls?_of_nested (hclass : InnermostClass h header between line)
    (hnested : ∃ l ∈ between, classHeader? l ≠ none) :
    (((s.next header).afterLines between).close (indentWidth line)).cls? = none := by
  obtain ⟨before, other, after, rfl, hother, hafter⟩ := exists_last hnested
  obtain ⟨g, hg⟩ := Option.ne_none_iff_exists'.mp hother
  rw [afterLines_append, afterLines_cons, next_of_classHeader? hg,
    Option.eq_none_iff_forall_ne_some,
    cls?_close]
  intro c hc
  -- a class that is still open is the last one that opened, and that one would enclose the line
  obtain ⟨hopen, hindent⟩ := Option.filter_eq_some_iff.mp hc
  obtain ⟨hself, hdeeper⟩ := (cls?_afterLines fun l hl => not_not.mp (hafter l hl)).mp hopen
  obtain rfl := Option.some.inj hself
  refine hclass.innermost other after ⟨before, rfl⟩ hother (deeper_append.mpr ⟨hdeeper, ?_⟩)
  exact deeper_cons.mpr ⟨fun _ => by simpa using hindent, by simp [Deeper]⟩

/-- **The method around a line is followed as long as its class is.** -/
theorem method?_of_around {c : ClassScope} {name : String} {outer inside : List (List Char)}
    {method : List Char} (hmethod : MethodAround name outer method inside line)
    (hline : isCode line = true) (hcls : s.cls? = some c) (hfresh : s.method? = none)
    (hnone : ∀ l ∈ outer ++ method :: inside, classHeader? l = none)
    (hc : Deeper c.indent (outer ++ method :: inside ++ [line])) :
    ((s.afterLines (outer ++ method :: inside)).close (indentWidth line)).method? =
      some ⟨name, indentWidth method⟩ := by
  have hcode : isCode method = true := isCode_of_functionHeader? hmethod.opens
  obtain ⟨hinside, hlast⟩ := deeper_append.mp hmethod.encloses
  obtain ⟨hc, hcline⟩ := deeper_append.mp hc
  obtain ⟨hcouter, hc'⟩ := deeper_append.mp hc
  obtain ⟨hcmethod, hcinside⟩ := deeper_cons.mp hc'
  rw [List.forall_mem_append, List.forall_mem_cons] at hnone
  have houter : (s.afterLines outer).cls? = some c := (cls?_afterLines hnone.1).mpr ⟨hcls, hcouter⟩
  -- a method that were still open would be the one around the line
  have hclosed : (s.afterLines outer).method?.filter (·.indent < indentWidth method) = none := by
    rw [Option.eq_none_iff_forall_ne_some]
    intro m hm
    obtain ⟨hopen, hindent⟩ := Option.filter_eq_some_iff.mp hm
    have hindent : m.indent < indentWidth method := by simpa using hindent
    obtain ⟨first, other, after, rfl, hname, hsame, hafter⟩ :=
      exists_of_method?_afterLines hcls hfresh hnone.1 hcouter hopen
    refine hmethod.outermost other after ⟨first, rfl⟩ (by simp [hname]) ?_
    rw [Encloses, hsame, List.append_assoc, List.cons_append, deeper_append, deeper_cons]
    exact ⟨hafter, fun _ => hindent, hmethod.encloses.mono hindent⟩
  have hopened : ((s.afterLines outer).next method).method? = some ⟨name, indentWidth method⟩ := by
    rw [method?_next houter hcode hnone.2.1 (hcmethod hcode), hclosed, hmethod.opens]
    rfl
  have hstill : ((s.afterLines outer).next method).cls? = some c := by
    rw [cls?_next hcode hnone.2.1, houter, Option.filter_some]
    exact if_pos (by simpa using hcmethod hcode)
  have hend : (((s.afterLines outer).next method).afterLines inside).cls? = some c :=
    (cls?_afterLines hnone.2.2).mpr ⟨hstill, hcinside⟩
  rw [afterLines_append, afterLines_cons, method?_close,
    method?_afterLines hstill hopened hnone.2.2 hcinside hinside, Option.filter_some]
  · exact if_pos (by simpa using (deeper_cons.mp hlast).1 hline)
  · intro d hd
    rw [hend] at hd
    exact Option.some.inj hd ▸ (deeper_cons.mp hcline).1 hline

/-! ### Findings of a line -/

theorem line_of_mem_findings {n : Nat} {v : Violation} (hv : v ∈ s.findings path n l) :
    v.line = n := by
  unfold findings at hv
  cases hcls : s.cls? with
  | none => simp [hcls] at hv
  | some c =>
    simp only [hcls] at hv
    split at hv
    · exact absurd hv List.not_mem_nil
    · rcases List.mem_append.mp hv with hv | hv
      · split at hv
        · exact List.mem_singleton.mp hv ▸ rfl
        · exact absurd hv List.not_mem_nil
      · split at hv
        · exact List.mem_singleton.mp hv ▸ rfl
        · exact absurd hv List.not_mem_nil

/-- When a loop is found on a line. -/
theorem exists_loop_iff {n : Nat} :
    (∃ v ∈ s.findings path n l, v.ruleId = Rule.loopInNonBatchNode.id) ↔
      (∃ c ∈ s.cls?, c.isNode = true ∧ c.isBatch = false) ∧
        (∃ m ∈ s.method?, startsWith m.name "exec" = true) ∧ isForLoop l = true := by
  have hmethod : startsWith ((s.method?.map (·.name)).getD "<class body>") "exec" = true ↔
      ∃ m ∈ s.method?, startsWith m.name "exec" = true := by
    cases s.method? with
    | none => simp [show startsWith "<class body>" "exec" = false by decide]
    | some m => simp
  rw [findings]
  cases s.cls? with
  | none => simp
  | some c =>
    dsimp only
    rw [← hmethod]
    cases hnode : c.isNode with
    | false => simp [hnode]
    | true =>
      simp only [Bool.not_true, Bool.false_eq_true, if_false, List.mem_append, or_and_right,
        exists_or]
      -- calls that block are findings of another rule
      rw [or_iff_left]
      · cases hbatch : c.isBatch with
        | true => simp [hbatch]
        | false => split <;> simp_all [Violation.of, Violation.withSeverity]
      · rintro ⟨v, hv, hrule⟩
        split at hv
        · rw [List.mem_singleton.mp hv] at hrule
          exact absurd hrule (show Rule.blockingCallInSyncNode.id ≠ _ by decide)
        · exact absurd hv List.not_mem_nil

theorem line_of_mem_found {n : Nat} {v : Violation} (hv : v ∈ s.found path n l) : v.line = n := by
  unfold found at hv
  split at hv
  · exact line_of_mem_findings hv
  · exact absurd hv List.not_mem_nil

theorem line_of_mem_run {n : Nat} {v : Violation} (hv : v ∈ run path s n ls) :
    n ≤ v.line ∧ v.line < n + ls.length := by
  induction ls generalizing s n with
  | nil => exact absurd hv List.not_mem_nil
  | cons l ls ih =>
    rw [run_cons, List.mem_append] at hv
    rw [List.length_cons]
    rcases hv with hv | hv
    · have := line_of_mem_found hv
      omega
    · have := ih hv
      omega

/-- The findings with the number of a line are those of the line. -/
theorem mem_run_iff {n : Nat} {as bs : List (List Char)} {v : Violation}
    (hv : v.line = n + as.length) :
    v ∈ run path s n (as ++ l :: bs) ↔ v ∈ (s.afterLines as).found path (n + as.length) l := by
  rw [run_append, run_cons, List.mem_append, List.mem_append]
  constructor
  · rintro (h | h | h)
    · have := line_of_mem_run h
      omega
    · exact h
    · have := line_of_mem_run h
      omega
  · exact fun h => .inr (.inl h)

/-- What is found with the number of a line, and what is found on the line. -/
theorem exists_loop_run_iff {n : Nat} {as bs : List (List Char)} :
    (∃ v ∈ run path s n (as ++ l :: bs),
        v.ruleId = Rule.loopInNonBatchNode.id ∧ v.line = n + as.length) ↔
      ∃ v ∈ (s.afterLines as).found path (n + as.length) l,
        v.ruleId = Rule.loopInNonBatchNode.id := by
  constructor
  · rintro ⟨v, hv, hrule, hline⟩
    exact ⟨v, (mem_run_iff hline).mp hv, hrule⟩
  · rintro ⟨v, hv, hrule⟩
    have hline := line_of_mem_found hv
    exact ⟨v, (mem_run_iff hline).mpr hv, hrule, hline⟩

theorem found_of_isForLoop (h : isForLoop l = true) (n : Nat) :
    s.found path n l = (s.close (indentWidth l)).findings path n l := by
  obtain ⟨hcode, hclass, hfunction⟩ := plain_of_isForLoop h
  rw [found, hcode, hclass, hfunction]
  rfl

end LineScope

/-- **A loop in a method that computes a node is found exactly when no other class opens between the
header of the class around it and the loop.** -/
theorem loop_found_iff {path source name : String} {h : ClassHeader}
    {before outer inside after : List (List Char)} {header method line : List Char}
    (hsource : linesOf source.toList =
      before ++ header :: (outer ++ method :: inside) ++ line :: after)
    (hclass : InnermostClass h header (outer ++ method :: inside) line)
    (hnode : h.bases.any (endsWith · "Node") = true)
    (hbatch : h.bases.any (contains · "Batch") = false)
    (hmethod : MethodAround name outer method inside line)
    (hexec : startsWith name "exec" = true) (hloop : isForLoop line = true) :
    (∃ v ∈ checkLines path source, v.ruleId = Rule.loopInNonBatchNode.id ∧
        v.line = before.length + outer.length + inside.length + 3) ↔
      ∀ l ∈ outer ++ method :: inside, classHeader? l = none := by
  have hcode : isCode line = true := (plain_of_isForLoop hloop).1
  have hnumber : before.length + outer.length + inside.length + 3 =
      1 + (before ++ header :: (outer ++ method :: inside)).length := by
    simp only [List.length_append, List.length_cons]
    omega
  rw [checkLines, hsource, hnumber, LineScope.exists_loop_run_iff,
    LineScope.found_of_isForLoop hloop, LineScope.exists_loop_iff, LineScope.afterLines_append,
    LineScope.afterLines_cons]
  constructor
  · rintro ⟨⟨c, hc, -⟩, -⟩ l hl
    by_contra hother
    rw [LineScope.cls?_of_nested hclass ⟨l, hl, hother⟩] at hc
    exact absurd hc (by simp)
  · intro hnone
    refine ⟨⟨_, LineScope.cls?_of_innermost hclass hcode hnone, hnode, hbatch⟩,
      ⟨⟨name, indentWidth method⟩, ?_, hexec⟩, hloop⟩
    rw [LineScope.next_of_classHeader? hclass.opens]
    exact LineScope.method?_of_around hmethod hcode rfl rfl hnone hclass.encloses

/-- A node with a class inside that ends before its method begins. -/
def nestedClass : String :=
  "class Load(Node):\n    class Meta:\n        size = 1\n" ++
    "    def exec(self, items):\n        for item in items:\n            use(item)\n"

theorem loop_notFound_nestedClass :
    ¬∃ v ∈ checkLines "nodes.py" nestedClass,
      v.ruleId = Rule.loopInNonBatchNode.id ∧ v.line = 5 := by
  have hclass : InnermostClass ⟨"Load", ["Node"]⟩ "class Load(Node):".toList
      ["    class Meta:".toList, "        size = 1".toList, "    def exec(self, items):".toList]
      "        for item in items:".toList := by
    refine ⟨rfl, by decide, fun other after hafter hother => ?_⟩
    simp only [List.suffix_cons_iff, List.suffix_nil, List.cons.injEq, reduceCtorEq, or_false]
      at hafter
    rcases hafter with ⟨rfl, rfl⟩ | ⟨rfl, rfl⟩ | ⟨rfl, rfl⟩
    · decide
    · exact absurd rfl hother
    · exact absurd rfl hother
  have hmethod : MethodAround "exec" ["    class Meta:".toList, "        size = 1".toList]
      "    def exec(self, items):".toList [] "        for item in items:".toList := by
    refine ⟨rfl, by decide, fun other after hafter hother => ?_⟩
    simp only [List.suffix_cons_iff, List.suffix_nil, List.cons.injEq, reduceCtorEq, or_false]
      at hafter
    rcases hafter with ⟨rfl, rfl⟩ | ⟨rfl, rfl⟩
    · exact absurd rfl hother
    · exact absurd rfl hother
  have hfound := @loop_found_iff "nodes.py" nestedClass "exec" _ [] _ _
    ["            use(item)".toList] _ _ _ (by decide +kernel) hclass (by decide) (by decide)
    hmethod (by decide) (by decide)
  intro hv
  exact absurd (hfound.mp hv _ List.mem_cons_self) (by decide)

end AgentFlow.Lint
