import CodeSession.Proofs.Backend.Upload
import Mathlib.Data.List.Nodup

/-!
# File names on the wire

Which paths have one name in a multipart body. Quotes and control characters are percent-encoded
there, but a percent sign stands as it is: a path that spells the encoding out has the name of one
that needs it.

* `Confusable` -- paths that differ in this only;
* `seenName_eq_iff`, `fileName_eq_iff` -- just these have one name, as it is read and as it is
  written;
* `Confusable.eq_of_plain`, `Confusable.eq_of_notMem` -- paths that need no encoding, and paths
  without a percent sign, keep their differences;
* `nodup_names_iff` -- so the names of paths differ just if no two of them are confusable.
-/

namespace CodeSession.Backend.Multipart

open Text

/-! ## 1. Encodings of characters -/

theorem toNat_lt_of_hidden {c : Char} (h : Hidden c) : c.toNat < 0x23 := by
  rcases h with rfl | ⟨h, -⟩
  · decide
  · omega

/-- What a character is encoded as: a percent sign, and digits. -/
theorem percentChar_eq_of_hidden {c : Char} (h : Hidden c) :
    ∃ p, percentChar c = '%' :: p ∧ '%' ∉ p ∧ p.length = 2 := by
  have hsmall : ∀ n < 0x23, (percentChar (Char.ofNat n)).head? = some '%' ∧
      '%' ∉ (percentChar (Char.ofNat n)).tail ∧ (percentChar (Char.ofNat n)).tail.length = 2 := by
    decide
  obtain ⟨hhead, htail, hlength⟩ := hsmall c.toNat (toNat_lt_of_hidden h)
  rw [Char.ofNat_toNat] at hhead htail hlength
  obtain ⟨p, hp⟩ := List.head?_eq_some_iff.mp hhead
  rw [hp, List.tail_cons] at htail hlength
  exact ⟨p, hp, htail, hlength⟩

/-- The digits tell the character. -/
theorem percentChar_injective {c d : Char} (hc : Hidden c) (hd : Hidden d)
    (h : percentChar c = percentChar d) : c = d := by
  have hsmall : ∀ m < 0x23, ∀ n < 0x23,
      percentChar (Char.ofNat m) = percentChar (Char.ofNat n) → m = n := by decide +kernel
  have hall := hsmall c.toNat (toNat_lt_of_hidden hc) d.toNat (toNat_lt_of_hidden hd)
  rw [Char.ofNat_toNat, Char.ofNat_toNat] at hall
  rw [← Char.ofNat_toNat c, hall h, Char.ofNat_toNat]

theorem length_percentChar {c d : Char} (hc : Hidden c) (hd : Hidden d) :
    (percentChar c).length = (percentChar d).length := by
  obtain ⟨p, hp, -, hlength⟩ := percentChar_eq_of_hidden hc
  obtain ⟨q, hq, -, hlength'⟩ := percentChar_eq_of_hidden hd
  rw [hp, hq, List.length_cons, List.length_cons, hlength, hlength']

theorem seenChar_of_hidden {c : Char} (h : Hidden c) : seenChar c = percentChar c := by
  have hslash : c ≠ '\\' := by
    rintro rfl
    exact absurd h (by decide)
  rw [seenChar, nameChar_eq, if_pos h]
  simp [hslash]

theorem seenChar_of_plain {c : Char} (h : ¬Hidden c) : seenChar c = [c] := by
  by_cases hslash : c = '\\'
  · simp [seenChar, hslash]
  · simp [seenChar, hslash, nameChar_eq, h]

theorem nameChar_of_hidden {c : Char} (h : Hidden c) : nameChar c = percentChar c := by
  rw [nameChar_eq, if_pos h]

theorem nameChar_of_plain {c : Char} (h : ¬Hidden c) (hslash : c ≠ '\\') : nameChar c = [c] := by
  rw [nameChar_eq, if_neg h, if_neg hslash]

theorem flatMap_seenChar_of_hidden {c : Char} (h : Hidden c) (cs : List Char) :
    (c :: cs).flatMap seenChar = percentChar c ++ cs.flatMap seenChar := by
  rw [List.flatMap_cons, seenChar_of_hidden h]

theorem flatMap_seenChar_of_plain {c : Char} (h : ¬Hidden c) (cs : List Char) :
    (c :: cs).flatMap seenChar = c :: cs.flatMap seenChar := by
  rw [List.flatMap_cons, seenChar_of_plain h, List.singleton_append]

theorem flatMap_seenChar_ne_nil (c : Char) (cs : List Char) :
    (c :: cs).flatMap seenChar ≠ [] := by
  by_cases hc : Hidden c
  · obtain ⟨p, hp, -⟩ := percentChar_eq_of_hidden hc
    rw [flatMap_seenChar_of_hidden hc, hp]
    exact List.cons_ne_nil _ _
  · rw [flatMap_seenChar_of_plain hc]
    exact List.cons_ne_nil _ _

/-! ## 2. Confusable paths -/

/-- Paths that are the same but for characters that one has and the other spells out
    percent-encoded. -/
inductive Confusable : List Char → List Char → Prop where
  | nil : Confusable [] []
  | same (c : Char) {cs ds : List Char} (h : Confusable cs ds) : Confusable (c :: cs) (c :: ds)
  | left {c : Char} {cs ds : List Char} (hc : Hidden c) (h : Confusable cs ds) :
      Confusable (c :: cs) (percentChar c ++ ds)
  | right {c : Char} {cs ds : List Char} (hc : Hidden c) (h : Confusable cs ds) :
      Confusable (percentChar c ++ cs) (c :: ds)

namespace Confusable

variable {cs ds : List Char}

/-- Paths that need no encoding are confusable with themselves only. -/
theorem eq_of_plain (h : Confusable cs ds) (hcs : ∀ c ∈ cs, ¬Hidden c)
    (hds : ∀ d ∈ ds, ¬Hidden d) : cs = ds := by
  induction h with
  | nil => rfl
  | same c _ ih =>
    rw [ih (List.forall_mem_cons.mp hcs).2 (List.forall_mem_cons.mp hds).2]
  | left hc => exact absurd hc (hcs _ List.mem_cons_self)
  | right hc => exact absurd hc (hds _ List.mem_cons_self)

/-- So are paths without a percent sign. -/
theorem eq_of_notMem (h : Confusable cs ds) (hcs : '%' ∉ cs) (hds : '%' ∉ ds) : cs = ds := by
  have hpercent : ∀ {c : Char}, Hidden c → ∀ rest, '%' ∈ percentChar c ++ rest := by
    intro c hc rest
    obtain ⟨p, hp, -⟩ := percentChar_eq_of_hidden hc
    rw [hp]
    exact List.mem_cons_self
  induction h with
  | nil => rfl
  | same c _ ih =>
    rw [ih (mt (List.mem_cons_of_mem _) hcs) (mt (List.mem_cons_of_mem _) hds)]
  | left hc => exact absurd (hpercent hc _) hds
  | right hc => exact absurd (hpercent hc _) hcs

end Confusable

/-! ## 3. Names -/

section Names

variable {f : Char → List Char} {c d : Char} {cs ds : List Char}

/-- What percent-encodes characters leaves their encodings as they are. -/
theorem flatMap_percentChar (hc : Hidden c) (hplain : ∀ d, ¬Hidden d → d ≠ '\\' → f d = [d]) :
    (percentChar c).flatMap f = percentChar c := by
  have hall : ∀ d ∈ percentChar c, f d = [d] := fun d hd =>
    hplain d (percentChar_of_hidden hc d hd).1 (percentChar_of_hidden hc d hd).2
  rw [List.flatMap_congr hall, List.flatMap_singleton']

/-- So it makes confusable paths the same. -/
theorem flatMap_eq_of_confusable (hhidden : ∀ c, Hidden c → f c = percentChar c)
    (hplain : ∀ d, ¬Hidden d → d ≠ '\\' → f d = [d]) (h : Confusable cs ds) :
    cs.flatMap f = ds.flatMap f := by
  induction h with
  | nil => rfl
  | same c _ ih => rw [List.flatMap_cons, List.flatMap_cons, ih]
  | left hc _ ih =>
    rw [List.flatMap_cons, List.flatMap_append, ih, flatMap_percentChar hc hplain, hhidden _ hc]
  | right hc _ ih =>
    rw [List.flatMap_cons, List.flatMap_append, ih, flatMap_percentChar hc hplain, hhidden _ hc]

/-- A path that is seen to begin with plain characters, of which none is a percent sign, begins with
    them. -/
theorem exists_append_of_seen {p rest : List Char} (hp : '%' ∉ p)
    (h : cs.flatMap seenChar = p ++ rest) : ∃ ds, cs = p ++ ds ∧ ds.flatMap seenChar = rest := by
  induction p generalizing cs with
  | nil => exact ⟨cs, rfl, h⟩
  | cons d p ih =>
    cases cs with
    | nil => cases h
    | cons c cs =>
      by_cases hc : Hidden c
      · -- it would begin with a percent sign
        obtain ⟨q, hq, -⟩ := percentChar_eq_of_hidden hc
        rw [flatMap_seenChar_of_hidden hc, hq] at h
        exact absurd (List.mem_cons.mpr (.inl (List.cons.inj h).1)) hp
      · rw [flatMap_seenChar_of_plain hc] at h
        obtain ⟨rfl, hrest⟩ := List.cons.inj h
        obtain ⟨ds, rfl, hds⟩ := ih (mt (List.mem_cons_of_mem _) hp) hrest
        exact ⟨ds, rfl, hds⟩

/-- A path that is seen to begin with an encoding spells it out, or begins with the character. -/
theorem exists_append_of_hidden (hc : Hidden c) (hd : ¬Hidden d)
    (h : percentChar c ++ cs.flatMap seenChar = (d :: ds).flatMap seenChar) :
    ∃ ds', d :: ds = percentChar c ++ ds' ∧ cs.flatMap seenChar = ds'.flatMap seenChar := by
  obtain ⟨p, hp, hpercent, -⟩ := percentChar_eq_of_hidden hc
  rw [flatMap_seenChar_of_plain hd, hp] at h
  obtain ⟨rfl, hrest⟩ := List.cons.inj h
  obtain ⟨ds', rfl, hds'⟩ := exists_append_of_seen hpercent hrest.symm
  exact ⟨ds', by rw [hp, List.cons_append], hds'.symm⟩

/-- Paths that are seen as the same are confusable. -/
theorem confusable_of_seen : ∀ {cs ds : List Char},
    cs.flatMap seenChar = ds.flatMap seenChar → Confusable cs ds
  | [], [], _ => .nil
  | [], d :: ds, h => absurd h.symm (flatMap_seenChar_ne_nil d ds)
  | c :: cs, [], h => absurd h (flatMap_seenChar_ne_nil c cs)
  | c :: cs, d :: ds, h => by
    by_cases hc : Hidden c
    · by_cases hd : Hidden d
      · rw [flatMap_seenChar_of_hidden hc, flatMap_seenChar_of_hidden hd] at h
        obtain ⟨hchar, hrest⟩ := List.append_inj h (length_percentChar hc hd)
        obtain rfl := percentChar_injective hc hd hchar
        exact .same c (confusable_of_seen hrest)
      · rw [flatMap_seenChar_of_hidden hc] at h
        obtain ⟨ds', hds', hrest⟩ := exists_append_of_hidden hc hd h
        have hshorter : ds'.length ≤ (d :: ds).length := by simp [hds']
        rw [hds']
        exact .left hc (confusable_of_seen hrest)
    · by_cases hd : Hidden d
      · rw [flatMap_seenChar_of_hidden hd] at h
        obtain ⟨cs', hcs', hrest⟩ := exists_append_of_hidden hd hc h.symm
        have hshorter : cs'.length ≤ (c :: cs).length := by simp [hcs']
        rw [hcs']
        exact .right hd (confusable_of_seen hrest.symm)
      · rw [flatMap_seenChar_of_plain hc, flatMap_seenChar_of_plain hd] at h
        obtain ⟨rfl, hrest⟩ := List.cons.inj h
        exact .same c (confusable_of_seen hrest)
termination_by cs ds => cs.length + ds.length
decreasing_by all_goals simp only [List.length_cons] at *; omega

/-- **Paths have one name, as it is read, just if they are confusable.** -/
theorem seen_eq_iff : cs.flatMap seenChar = ds.flatMap seenChar ↔ Confusable cs ds :=
  ⟨confusable_of_seen, flatMap_eq_of_confusable (fun _ => seenChar_of_hidden)
    fun _ hd _ => seenChar_of_plain hd⟩

end Names

variable {path path' : String}

theorem seenName_eq_iff :
    seenName path = seenName path' ↔ Confusable path.toList path'.toList := by
  rw [seenName, seenName, String.ofList_inj, seen_eq_iff]

/-- **Paths have one name, as it is written, just if they are confusable**: the name that is written
    decides the one that is read. -/
theorem fileName_eq_iff :
    fileName path = fileName path' ↔ Confusable path.toList path'.toList := by
  rw [fileName, fileName, String.ofList_inj]
  constructor
  · intro h
    have hread := quotedString?_name path.toList []
    rw [h, quotedString?_name] at hread
    exact seen_eq_iff.mp (congrArg Prod.fst (Option.some.inj hread)).symm
  · exact flatMap_eq_of_confusable (fun _ => nameChar_of_hidden) fun _ => nameChar_of_plain

/-! ## 4. The names of an upload -/

variable {files : List SelectedFile}

/-- **The names of files differ just if no two of their paths are confusable**, as they are written
    and as they are read. -/
theorem nodup_names_iff {name : String → String}
    (hname : ∀ {path path' : String},
      name path = name path' ↔ Confusable path.toList path'.toList) :
    (files.map fun f => name f.relativePath).Nodup ↔
      files.Pairwise fun f g => ¬Confusable f.relativePath.toList g.relativePath.toList := by
  rw [List.Nodup, List.pairwise_map]
  exact List.Pairwise.iff fun _ _ => not_congr hname

/-- Paths that differ are not confusable if none needs an encoding, or none has a percent sign. -/
theorem pairwise_not_confusable (h : (files.map SelectedFile.relativePath).Nodup)
    (hpaths : (∀ f ∈ files, ∀ c ∈ f.relativePath.toList, ¬Hidden c) ∨
      ∀ f ∈ files, '%' ∉ f.relativePath.toList) :
    files.Pairwise fun f g => ¬Confusable f.relativePath.toList g.relativePath.toList := by
  refine (List.pairwise_map.mp h).imp_of_mem fun {f g} hf hg hne hconfusable => hne ?_
  rw [← String.toList_inj]
  rcases hpaths with hplain | hpercent
  · exact hconfusable.eq_of_plain (hplain f hf) (hplain g hg)
  · exact hconfusable.eq_of_notMem (hpercent f hf) (hpercent g hg)

end CodeSession.Backend.Multipart
