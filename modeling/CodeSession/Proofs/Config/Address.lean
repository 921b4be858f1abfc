import CodeSession.Proofs.Config.Sources
import Mathlib.Data.List.TakeWhile

/-!
# The address of the backend

What is stored of an address, and when what is stored is an address again.

* `HasScheme` -- the text starts with one of the two schemes;
* `Addressed` -- something other than slashes follows the scheme, and no blank stands before the
  slashes at the end;
* `baseUrl_eq_ok_iff` -- the rule for addresses: blanks and slashes at the ends go, the scheme is
  looked at in between;
* `address_of_load` -- what is stored has no blank at its start and no slash at its end, but it has
  a scheme, has no blank at its end and is stored again as it is just if the text is addressed;
* `address_without_host` -- texts that are not.
-/

namespace CodeSession

open Validation Json Text

/-! ## 1. Slashes -/

/-- What goes is slashes. -/
theorem dropSlashes_append (cs : List Char) :
    ∃ n, cs = dropSlashes cs ++ List.replicate n '/' := by
  have hslashes : ∀ c ∈ cs.reverse.takeWhile (· == '/'), c = '/' := fun c hc => by
    simpa using List.mem_takeWhile_imp hc
  refine ⟨(cs.reverse.takeWhile (· == '/')).length, ?_⟩
  rw [← List.reverse_inj, dropSlashes, List.reverse_append, List.reverse_reverse,
    List.reverse_replicate, ← List.eq_replicate_of_mem hslashes, List.takeWhile_append_dropWhile]

theorem getLast?_dropSlashes (cs : List Char) : (dropSlashes cs).getLast? ≠ some '/' := by
  intro h
  rw [dropSlashes, List.getLast?_reverse] at h
  cases head_dropWhile (· == '/') _ _ h

/-- Slashes at the end go. -/
theorem dropSlashes_of_append {cs : List Char} (h : cs.getLast? ≠ some '/') (n : Nat) :
    dropSlashes (cs ++ List.replicate n '/') = cs := by
  have hstop : cs.reverse.dropWhile (· == '/') = cs.reverse := by
    apply dropWhile_eq_self
    intro c hc
    rw [List.head?_reverse] at hc
    rw [beq_eq_false_iff_ne]
    rintro rfl
    exact h hc
  rw [dropSlashes, List.reverse_append, List.reverse_replicate, List.dropWhile_append_of_pos, hstop,
    List.reverse_reverse]
  intro c hc
  rw [List.eq_of_mem_replicate hc]
  rfl

/-! ## 2. The rule -/

/-- A text with one of the two schemes. -/
def HasScheme (cs : List Char) : Prop :=
  "http://".toList <+: cs ∨ "https://".toList <+: cs

theorem baseUrl_eq_ok_iff {s w : String} :
    baseUrl s = .ok w ↔
      HasScheme (trim isBlank s.toList) ∧ w.toList = dropSlashes (trim isBlank s.toList) := by
  unfold baseUrl HasScheme
  simp only [Bool.or_eq_true, List.isPrefixOf_iff_prefix]
  split
  · rename_i hscheme
    rw [Except.ok.injEq, ← String.toList_inj, String.toList_ofList]
    exact ⟨fun h => ⟨hscheme, h.symm⟩, fun h => h.2.symm⟩
  · rename_i hscheme
    exact ⟨fun h => (by cases h), fun h => absurd h.1 hscheme⟩

/-- The text of a source, if it is one. -/
def Source.text? : Source → Option String
  | .given (.string s) => some s
  | .given _ => none
  | .environment s => some s

theorem take?_apiBaseUrl {s : Source} {w : String} :
    Setting.apiBaseUrl.take? s = some w ↔ ∃ v, s.text? = some v ∧ baseUrl v = .ok w := by
  rw [Setting.take?_eq_some_iff, Setting.answer]
  cases s with
  | environment v => simp [answer_environment_eq_ok_iff, Source.text?]
  | given v =>
    rw [answer_given_eq_ok_iff]
    cases v <;> simp [Validation.text, Source.text?, Checked.refuse]

/-! ## 3. What is stored -/

/-- Something other than slashes follows the scheme, and no blank stands before the slashes at the
    end. -/
def Addressed (s : String) : Prop :=
  ∃ scheme rest last n, (scheme = "http://" ∨ scheme = "https://") ∧
    trim isBlank s.toList = scheme.toList ++ rest ++ [last] ++ List.replicate n '/' ∧
    last ≠ '/' ∧ isBlank last = false

variable {env : Environment} {given : Members} {c : Config} {v w : String}

theorem hasScheme_iff {cs : List Char} :
    HasScheme cs ↔ ∃ scheme rest, (scheme = "http://" ∨ scheme = "https://") ∧
      cs = scheme.toList ++ rest := by
  unfold HasScheme
  constructor
  · rintro (⟨rest, h⟩ | ⟨rest, h⟩)
    · exact ⟨_, rest, .inl rfl, h.symm⟩
    · exact ⟨_, rest, .inr rfl, h.symm⟩
  · rintro ⟨scheme, rest, rfl | rfl, rfl⟩
    · exact .inl (List.prefix_append _ _)
    · exact .inr (List.prefix_append _ _)

/-- What is stored has a scheme and no blank at its end just if the text is addressed. -/
theorem hasScheme_stored_iff (hw : baseUrl v = .ok w) :
    (HasScheme w.toList ∧ ∀ ch, w.toList.getLast? = some ch → isBlank ch = false) ↔
      Addressed v := by
  obtain ⟨-, hstored⟩ := baseUrl_eq_ok_iff.mp hw
  obtain ⟨n, hslashes⟩ := dropSlashes_append (trim isBlank v.toList)
  have hlast := getLast?_dropSlashes (trim isBlank v.toList)
  rw [← hstored] at hslashes hlast
  constructor
  · rintro ⟨hscheme, hblank⟩
    obtain ⟨scheme, rest, hs, hrest⟩ := hasScheme_iff.mp hscheme
    rcases List.eq_nil_or_concat rest with rfl | ⟨rest, last, rfl⟩
    · -- the scheme itself ends in a slash
      rw [hrest] at hlast
      rcases hs with rfl | rfl <;> exact absurd rfl hlast
    · have hend : w.toList.getLast? = some last := by
        rw [hrest, List.concat_eq_append, ← List.append_assoc, List.getLast?_concat]
      refine ⟨scheme, rest, last, n, hs, ?_, fun h => hlast (h ▸ hend), hblank last hend⟩
      rw [hslashes, hrest, List.concat_eq_append, ← List.append_assoc scheme.toList]
  · rintro ⟨scheme, rest, last, m, hs, htrim, hslash, hblank⟩
    have hw : w.toList = scheme.toList ++ rest ++ [last] := by
      rw [hstored, htrim, dropSlashes_of_append]
      rw [List.getLast?_concat]
      exact fun h => hslash (Option.some.inj h)
    refine ⟨hasScheme_iff.mpr ⟨scheme, rest ++ [last], hs, by rw [hw, List.append_assoc]⟩, ?_⟩
    intro ch hch
    rw [hw, List.getLast?_concat] at hch
    exact Option.some.inj hch ▸ hblank

/-- What is stored has no blank at its start. -/
theorem head?_stored (hw : baseUrl v = .ok w) :
    ∀ ch, w.toList.head? = some ch → isBlank ch = false := by
  obtain ⟨-, hstored⟩ := baseUrl_eq_ok_iff.mp hw
  obtain ⟨n, hslashes⟩ := dropSlashes_append (trim isBlank v.toList)
  intro ch hch
  apply trim_head isBlank v.toList
  rw [hslashes, ← hstored, List.head?_append, hch]
  rfl

/-- What is stored of an addressed text is stored again as it is. -/
theorem baseUrl_stored (hw : baseUrl v = .ok w) (hv : Addressed v) : baseUrl w = .ok w := by
  obtain ⟨hscheme, hblank⟩ := (hasScheme_stored_iff hw).mpr hv
  obtain ⟨-, hstored⟩ := baseUrl_eq_ok_iff.mp hw
  have htrim : trim isBlank w.toList = w.toList := trim_eq_self (head?_stored hw) hblank
  have hslash : w.toList.getLast? ≠ some '/' := by
    rw [hstored]
    exact getLast?_dropSlashes _
  have hdrop : dropSlashes w.toList = w.toList := by
    simpa using dropSlashes_of_append hslash 0
  rw [baseUrl_eq_ok_iff, htrim, hdrop]
  exact ⟨hscheme, rfl⟩

/-- **The address of settings**, whether it was given or stands in the variable. It is the text
    without the blanks at its ends and the slashes at its end, so it has no blank at its start and
    no slash at its end. It has a scheme, has no blank at its end either, and gives the same
    settings when it is given again, just if the text is addressed. -/
theorem address_of_load (hload : Config.load env given = .ok c)
    (hsource : (Setting.apiBaseUrl.source env given).text? = some v) :
    (∃ n, trim isBlank v.toList = c.apiBaseUrl.toList ++ List.replicate n '/') ∧
      c.apiBaseUrl.toList.getLast? ≠ some '/' ∧
      (∀ ch, c.apiBaseUrl.toList.head? = some ch → isBlank ch = false) ∧
      ((HasScheme c.apiBaseUrl.toList ∧
          (∀ ch, c.apiBaseUrl.toList.getLast? = some ch → isBlank ch = false) ∧
          Config.load env (given.insert "api_base_url" (.string c.apiBaseUrl)) = .ok c) ↔
        Addressed v) := by
  have hall := load_eq_ok_iff.mp hload
  have hw : baseUrl v = .ok c.apiBaseUrl := by
    obtain ⟨v', hv', hw⟩ := take?_apiBaseUrl.mp (hall .apiBaseUrl)
    rw [hsource] at hv'
    exact Option.some.inj hv' ▸ hw
  obtain ⟨-, hstored⟩ := baseUrl_eq_ok_iff.mp hw
  have hiff := hasScheme_stored_iff hw
  refine ⟨?_, ?_, head?_stored hw, fun h => hiff.mp ⟨h.1, h.2.1⟩, fun h => ?_⟩
  · rw [hstored]
    exact dropSlashes_append _
  · rw [hstored]
    exact getLast?_dropSlashes _
  · refine ⟨(hiff.mpr h).1, (hiff.mpr h).2, ?_⟩
    have hagain : Setting.apiBaseUrl.take? (.given (.string c.apiBaseUrl)) = some c.apiBaseUrl :=
      take?_apiBaseUrl.mpr ⟨_, rfl, baseUrl_stored hw h⟩
    exact (load_insert_eq_ok_iff .apiBaseUrl _).mpr ⟨hagain, fun g _ => hall g⟩

/-- A text with a blank at its start and two slashes at its end is stored without them, and then as
    it is. -/
theorem address_of_padded :
    Config.load [("API_BASE_URL", " http://localhost:8080//")] [] = .ok .standard ∧
      (Setting.apiBaseUrl.source [("API_BASE_URL", " http://localhost:8080//")] []).text? =
        some " http://localhost:8080//" ∧
      Config.load [("API_BASE_URL", " http://localhost:8080//")]
        [("api_base_url", .string "http://localhost:8080")] = .ok .standard := by
  have hload : Config.load [("API_BASE_URL", " http://localhost:8080//")] [] = .ok .standard := by
    decide +kernel
  have haddressed : Addressed " http://localhost:8080//" :=
    ⟨"http://", "localhost:808".toList, '0', 2, .inl rfl, by decide, by decide, by decide⟩
  have hstored := address_of_load hload (v := " http://localhost:8080//") rfl
  exact ⟨hload, rfl, (hstored.2.2.2.mpr haddressed).2.2⟩

/-- **Not every address is stored as one.** A scheme alone loses its slashes, and what is left is
    refused if it is given again; a slash after a blank goes and leaves the blank at the end. -/
theorem address_without_host :
    Config.load [] [("api_base_url", .string "http://")] =
        .ok { Config.standard with apiBaseUrl := "http:" } ∧
      ¬HasScheme "http:".toList ∧
      Config.load [] [("api_base_url", .string "http:")] =
        .error (.issues [⟨[.field "api_base_url"], .badBaseUrl⟩]) ∧
      Config.load [] [("api_base_url", .string "http://a /")] =
        .ok { Config.standard with apiBaseUrl := "http://a " } ∧
      Config.load [] [("api_base_url", .string "http://a ")] =
        .ok { Config.standard with apiBaseUrl := "http://a" } := by
  refine ⟨by decide +kernel, ?_, by decide +kernel, by decide +kernel, by decide +kernel⟩
  rintro (h | h) <;> exact absurd (List.isPrefixOf_iff_prefix.mpr h) (by decide)

end CodeSession
