import AgentFlow.Proofs.Output.Handlers
import Mathlib.Data.List.Basic

/-!
# The methods of requests

An endpoint is accepted if its method is one of five in upper case.  The files of routes and of
tests have the method as it is stated, in lower case.  Three letters beyond the alphabet are written
with letters of the alphabet in upper case, but not in lower case: the long s and the two ligatures
of an s with a t.  This file reads the methods back from the files and says when they are among the
five.

* `decorators`, `requests`: what a file of routes is decorated with, and what its tests call.
* `lower_upper`: letters and digits have the same lower-case form after they were put in upper case.
* `EndpointSpec.isAlpha_or_long`: an accepted method has no other letters than those of the alphabet
  and the three.
* `Valid.decorators_routerFile`, `Valid.requests_apiTestsFile`: **the files have the methods as they
  are stated, in lower case.**
* `methods_agree_iff`: **they are the lower-case forms of what was accepted exactly if no method has
  one of the three letters.**
-/

namespace AgentFlow

open Text Output Code

/-! ### Calls in lines -/

/-- What is called by the rest of a line that starts with `head`: the text before the first round
bracket. -/
def called? (head line : String) : Option String :=
  (afterHead? head line).map fun rest => String.ofList (rest.toList.takeWhile (· != '('))

/-- What the functions of a file are decorated with. -/
def decorators (file : String) : List String := (lines file).filterMap (called? "@")

def requests (file : String) : List String :=
  (lines file).filterMap (called? "    response = client.")

variable {head name line : String}

theorem called?_eq_some (rest : List Char) (hname : '(' ∉ name.toList)
    (h : line.toList = head.toList ++ (name.toList ++ '(' :: rest)) :
    called? head line = some name := by
  have hopen : ∀ c ∈ name.toList, (c != '(') = true := fun c hc =>
    bne_iff_ne.mpr (ne_of_mem_of_not_mem hc hname)
  rw [called?, afterHead?_append h, Option.map_some, String.toList_ofList,
    List.takeWhile_append_of_pos hopen, List.takeWhile_cons_of_neg (by decide), List.append_nil,
    String.ofList_toList]

theorem called?_eq_none (h : ¬ head.toList <+: line.toList) : called? head line = none := by
  rw [called?, afterHead?_eq_none h, Option.map_none]

/-- Lines without the head call nothing. -/
theorem filterMap_called?_eq_nil {ls : List String} (h : ∀ l ∈ ls, ¬ head.toList <+: l.toList) :
    ls.filterMap (called? head) = [] := by
  refine List.filterMap_eq_nil_iff.mpr fun l hl => ?_
  exact called?_eq_none (h l hl)

/-! ### Letter case -/

theorem toLower_toUpper {c : Char} (h : c.isAlphanum = true) : c.toUpper.toLower = c.toLower := by
  have hall : ∀ n < 128, (Char.ofNat n).toUpper.toLower = (Char.ofNat n).toLower := by decide
  rw [← Char.ofNat_toNat c]
  exact hall c.toNat (toNat_lt_of_isNameChar (isNameChar_of_isAlphanum h))

/-- Letters and digits are put in upper case one by one. -/
theorem toList_upper {s : String} (h : ∀ c ∈ s.toList, c.isAlphanum = true) :
    (upper s).toList = s.toList.map Char.toUpper := by
  have hupper : ∀ c ∈ s.toList, upperChar c = [c.toUpper] := fun c hc =>
    upperChar_ascii (toNat_lt_of_isNameChar (isNameChar_of_isAlphanum (h c hc)))
  rw [upper, String.toList_ofList, List.flatMap_congr hupper, ← List.map_eq_flatMap]

/-- **Letters and digits have the same lower-case form after they were put in upper case.** -/
theorem lower_upper {s : String} (h : ∀ c ∈ s.toList, c.isAlphanum = true) :
    lower (upper s) = lower s := by
  have hupper : ∀ c ∈ (upper s).toList, c.isAlphanum = true := by
    rw [toList_upper h, List.forall_mem_map]
    exact fun c hc => isAlphanum_toUpper (h c hc)
  rw [← String.toList_inj, toList_lower hupper, toList_lower h, toList_upper h, List.map_map]
  exact List.map_congr_left fun c hc => toLower_toUpper (h c hc)

/-- A letter that is its own lower-case form stays in a text in lower case. -/
theorem mem_lowerAfter {c : Char} (hsigma : c ≠ 'Σ') (hself : lowerChar c = [c]) {cs : List Char}
    (hc : c ∈ cs) (before : List Char) : c ∈ lowerAfter before cs := by
  induction cs generalizing before with
  | nil => exact absurd hc List.not_mem_nil
  | cons d rest ih =>
    rw [lowerAfter, List.mem_append]
    rcases List.mem_cons.mp hc with rfl | hc
    · left
      rw [if_neg (by simpa using hsigma), hself]
      exact List.mem_singleton_self c
    · exact .inr (ih hc (d :: before))

/-! ### Methods -/

def routeMethods : List String := ["get", "post", "put", "patch", "delete"]

/-- What the function of a route may be decorated with. -/
def routeDecorators : List String :=
  ["router.get", "router.post", "router.put", "router.patch", "router.delete"]

theorem mem_routeDecorators {method : String} :
    "router." ++ method ∈ routeDecorators ↔ method ∈ routeMethods := by
  have hmap : routeDecorators = routeMethods.map ("router." ++ ·) := rfl
  rw [hmap, List.mem_map_of_injective fun _ _ => (String.append_right_inj "router.").mp]

def longLetters : List Char := ['ſ', 'ﬅ', 'ﬆ']

theorem longLetters_subset : longLetters ⊆ oddLetters := by decide

theorem not_mem_routeMethods : ∀ m ∈ routeMethods, ∀ c ∈ longLetters, c ∉ m.toList := by decide

theorem lower_mem_routeMethods : ∀ m ∈ httpMethods, lower m ∈ routeMethods := by decide +kernel

namespace EndpointSpec

/-- The method has none of the letters that become letters of the alphabet in upper case only. -/
def PlainMethod (e : EndpointSpec) : Prop := ∀ c ∈ e.method.toList, c ∉ longLetters

instance (e : EndpointSpec) : Decidable e.PlainMethod :=
  inferInstanceAs (Decidable (∀ c ∈ e.method.toList, c ∉ longLetters))

variable {e : EndpointSpec}

/-- **An accepted method has no letters but those of the alphabet and the three long ones.** -/
theorem isAlpha_or_long (h : e.Valid) {c : Char} (hc : c ∈ e.method.toList) :
    c.isAlpha = true ∨ c ∈ longLetters := by
  have hcapitals : ∀ m ∈ httpMethods, ∀ d ∈ m.toList, d.isUpper = true := by decide
  have hodd : ∀ c ∈ oddLetters, ∀ m ∈ httpMethods, upperChar c <:+: m.toList →
      c ∈ longLetters := by
    decide +kernel
  have hpart : upperChar c <:+: e.upperMethod.toList := by
    rw [upperMethod, upper, String.toList_ofList]
    exact List.infix_flatMap_of_mem hc upperChar
  have hletter := mem_of_upperChar fun d hd =>
    hcapitals _ h.method d (hpart.subset hd)
  exact hletter.imp_right fun hmem => hodd c hmem _ h.method hpart

theorem lower_upperMethod (hplain : e.PlainMethod) (h : e.Valid) :
    lower e.upperMethod = e.lowerMethod := by
  refine lower_upper fun c hc => ?_
  rcases isAlpha_or_long h hc with halpha | hlong
  · rw [Char.isAlphanum, halpha, Bool.true_or]
  · exact absurd hlong (hplain c hc)

/-- A long letter of the method is a letter of its lower-case form. -/
theorem not_mem_of_not_plainMethod (hplain : ¬ e.PlainMethod) : e.lowerMethod ∉ routeMethods := by
  intro hmem
  refine hplain fun c hc hlong => ?_
  obtain ⟨hsigma, hself, -⟩ := lowerChar_oddLetters c (longLetters_subset hlong)
  refine not_mem_routeMethods _ hmem c hlong ?_
  rw [lowerMethod, lower, String.toList_ofList]
  exact mem_lowerAfter hsigma hself hc []

theorem lowerMethod_mem_iff (h : e.Valid) : e.lowerMethod ∈ routeMethods ↔ e.PlainMethod := by
  constructor
  · intro hmem
    by_contra hplain
    exact not_mem_of_not_plainMethod hplain hmem
  · intro hplain
    rw [← lower_upperMethod hplain h]
    exact lower_mem_routeMethods _ h.method

/-- **The lower-case form of a method is that of its upper-case form exactly if it is plain.** -/
theorem lowerMethod_eq_iff (h : e.Valid) : e.lowerMethod = lower e.upperMethod ↔ e.PlainMethod := by
  constructor
  · intro heq
    rw [← lowerMethod_mem_iff h, heq]
    exact lower_mem_routeMethods _ h.method
  · exact fun hplain => (lower_upperMethod hplain h).symm

end EndpointSpec

/-! ### Methods in the files -/

variable {e : EndpointSpec} {w : WorkflowSpec}

theorem EndpointSpec.Valid.decorators_handlerLines (h : e.Valid) (w : WorkflowSpec) :
    (w.handlerLines e).filterMap (called? "@") = ["router." ++ e.lowerMethod] := by
  have hname : '(' ∉ ("router." ++ e.lowerMethod).toList := by
    rw [String.toList_append, List.mem_append, not_or]
    exact ⟨by decide, (isName_lowerMethod h).plain.2⟩
  rw [WorkflowSpec.handlerLines]
  by_cases hget : e.lowerMethod = "get"
  · have hcall : called? "@" ("@router.get(" ++ quoted e.path ++ ")") =
        some ("router." ++ e.lowerMethod) :=
      called?_eq_some (quoted e.path ++ ")").toList hname (by simp [hget])
    rw [if_pos (beq_iff_eq.mpr hget), List.filterMap_cons_some hcall]
    refine congrArg (_ :: ·) (filterMap_called?_eq_nil ?_)
    simp [docString]
  · have hcall : called? "@" ("@router." ++ e.lowerMethod ++ "(" ++ quoted e.path ++
        ", response_model=WorkflowResponse)") = some ("router." ++ e.lowerMethod) :=
      called?_eq_some (quoted e.path ++ ", response_model=WorkflowResponse)").toList hname (by simp)
    rw [if_neg (by simpa using hget), List.filterMap_cons_some hcall]
    refine congrArg (_ :: ·) (filterMap_called?_eq_nil ?_)
    simp only [List.forall_mem_cons]
    cases w.hasAsync <;> simp [docString]

theorem EndpointSpec.Valid.requests_testLines (h : e.Valid) :
    e.testLines.filterMap (called? "    response = client.") = [e.lowerMethod] := by
  have hname := (isName_lowerMethod h).plain.2
  have hheader : called? "    response = client." ("def test_" ++ e.handler ++ "():") = none :=
    called?_eq_none (by simp)
  rw [EndpointSpec.testLines, List.filterMap_cons_none hheader]
  by_cases hget : e.lowerMethod = "get"
  · have hcall : called? "    response = client."
        ("    response = client.get(" ++ quoted e.path ++ ")") = some e.lowerMethod :=
      called?_eq_some (quoted e.path ++ ")").toList hname (by simp [hget])
    rw [if_pos (beq_iff_eq.mpr hget), List.filterMap_cons_some hcall]
    exact congrArg (_ :: ·) (filterMap_called?_eq_nil (by decide))
  · have hcall : called? "    response = client." ("    response = client." ++ e.lowerMethod ++
        "(" ++ quoted e.path ++ ", json=\x7b\"input\": \"example\"\x7d)") = some e.lowerMethod :=
      called?_eq_some (quoted e.path ++ ", json=\x7b\"input\": \"example\"\x7d)").toList hname
        (by simp)
    rw [if_neg (by simpa using hget), List.filterMap_cons_some hcall]
    exact congrArg (_ :: ·) (filterMap_called?_eq_nil (by decide))

namespace WorkflowSpec

/-- **The functions of the file of routes are decorated with the methods as they are stated, in
lower case.** -/
theorem Valid.decorators_routerFile (h : w.Valid) :
    decorators w.routerFile = w.servedEndpoints.map fun e => "router." ++ e.lowerMethod := by
  have hfile : w.routerFile = unlines (w.routerHead ++
      w.servedEndpoints.flatMap fun e => ["", ""] ++ w.handlerLines e) := rfl
  have hhead : w.routerHead.filterMap (called? "@") = [] :=
    filterMap_called?_eq_nil (by simp [routerHead, docString])
  have hblank : called? "@" "" = none := called?_eq_none (by decide)
  rw [decorators, hfile, filterMap_lines_parts hblank oneLine_routerHead fun e he =>
      ⟨oneLine_handlerLines (valid_servedEndpoints h e he) w,
        (valid_servedEndpoints h e he).decorators_handlerLines w⟩,
    hhead, List.nil_append, List.map_eq_flatMap]

/-- **The tests for the interface call the methods as they are stated, in lower case.** -/
theorem Valid.requests_apiTestsFile (h : w.Valid) :
    requests w.apiTestsFile = "get" :: w.servedEndpoints.map (·.lowerMethod) := by
  have hfile : w.apiTestsFile = unlines (w.apiTestsHead ++
      w.servedEndpoints.flatMap fun e => ["", ""] ++ e.testLines) := rfl
  have hdoc : called? "    response = client."
      (docString ("API tests for " ++ docText w.name ++ ".")) = none :=
    called?_eq_none (by simp [docString])
  have hhead : w.apiTestsHead.filterMap (called? "    response = client.") = ["get"] := by
    rw [apiTestsHead, List.filterMap_cons_none hdoc]
    decide
  have hblank : called? "    response = client." "" = none := called?_eq_none (by decide)
  rw [requests, hfile, filterMap_lines_parts hblank oneLine_apiTestsHead fun e he =>
      ⟨(valid_servedEndpoints h e he).oneLine_testLines,
        (valid_servedEndpoints h e he).requests_testLines⟩,
    hhead, List.singleton_append, List.map_eq_flatMap]

/-- The endpoint that stands in when none is stated has a plain method. -/
theorem plainMethod_servedEndpoints :
    (∀ e ∈ w.servedEndpoints, e.PlainMethod) ↔ ∀ e ∈ w.endpoints, e.PlainMethod := by
  rw [servedEndpoints]
  split
  · next hnone =>
    have hrun : (EndpointSpec.run w.name).PlainMethod := by
      have : ∀ c ∈ "POST".toList, c ∉ longLetters := by decide
      exact this
    rw [List.isEmpty_iff.mp hnone, List.forall_mem_singleton]
    exact iff_of_true hrun fun e he => absurd he List.not_mem_nil
  · exact Iff.rfl

/-- **The methods in the file of routes and in the tests are the lower-case forms of the accepted
ones exactly if no method has one of the three long letters.**  Each endpoint with such a letter has
a decorator beyond the five. -/
theorem methods_agree_iff (h : w.validate = .ok ()) :
    decorators w.routerFile = w.servedEndpoints.map (fun e => "router." ++ e.lowerMethod) ∧
      requests w.apiTestsFile = "get" :: w.servedEndpoints.map (·.lowerMethod) ∧
        (∀ e ∈ w.servedEndpoints,
          (e.lowerMethod = lower e.upperMethod ↔ e.PlainMethod) ∧
            ("router." ++ e.lowerMethod ∈ routeDecorators ↔ e.PlainMethod)) ∧
          ((∀ d ∈ decorators w.routerFile, d ∈ routeDecorators) ↔
            ∀ e ∈ w.endpoints, e.PlainMethod) := by
  have hvalid := validate_eq_ok_iff.mp h
  have hdecorators := hvalid.decorators_routerFile
  have heach : ∀ e ∈ w.servedEndpoints,
      (e.lowerMethod = lower e.upperMethod ↔ e.PlainMethod) ∧
        ("router." ++ e.lowerMethod ∈ routeDecorators ↔ e.PlainMethod) := by
    intro e he
    have hserved := valid_servedEndpoints hvalid e he
    rw [mem_routeDecorators]
    exact ⟨EndpointSpec.lowerMethod_eq_iff hserved, EndpointSpec.lowerMethod_mem_iff hserved⟩
  refine ⟨hdecorators, hvalid.requests_apiTestsFile, heach, ?_⟩
  rw [hdecorators, List.forall_mem_map, ← plainMethod_servedEndpoints]
  exact forall₂_congr fun e he => (heach e he).2

/-- An endpoint whose method is written with a long s. -/
def longPost : WorkflowSpec :=
  { reviewLoop with
    fastApi := true
    endpoints := [⟨"POſT", "/a", ""⟩] }

theorem methods_longPost :
    longPost.validate = .ok () ∧ longPost.fastApi = true ∧
      decorators longPost.routerFile = ["router.poſt"] ∧
        requests longPost.apiTestsFile = ["get", "poſt"] ∧
          ¬ (∀ d ∈ decorators longPost.routerFile, d ∈ routeDecorators) ∧
            ¬ ∀ e ∈ longPost.servedEndpoints, e.lowerMethod = lower e.upperMethod := by
  have hvalid : longPost.validate = .ok () := by decide +kernel
  have hlong : ¬ ∀ e ∈ longPost.endpoints, e.PlainMethod := by decide
  have hlower : longPost.servedEndpoints.map (·.lowerMethod) = ["poſt"] := by decide +kernel
  obtain ⟨hdecorators, hrequests, heach, hall⟩ := methods_agree_iff hvalid
  refine ⟨hvalid, rfl, ?_, ?_, mt hall.mp hlong, fun hforms => ?_⟩
  · rw [hdecorators, ← Function.comp_def ("router." ++ ·) EndpointSpec.lowerMethod,
      ← List.map_map, hlower]
    decide
  · rw [hrequests, hlower]
  · exact hlong (plainMethod_servedEndpoints.mp fun e he => (heach e he).1.mp (hforms e he))

end WorkflowSpec

end AgentFlow
