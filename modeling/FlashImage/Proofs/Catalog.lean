import FlashImage.Catalog
import FlashImage.Proofs.GapFile
import Mathlib.Data.List.Nodup

/-!
# What holds for every type in the catalog

The catalog is a table, and what is needed of it holds for each of its rows. Types that are not in it
have names as well, made from their codes, and no two types share a name (`SectionCode.name_injective`).
No name is another one with something behind an underscore either, so that a name stays the same name
when a number is put behind it (`SectionCode.not_name_prefix`).
-/

namespace FlashImage.SectionCode

/-- A known type stands in the catalog under its code. -/
theorem mem_catalog {code : SectionCode} {t : SectionType} (h : type? code = some t) :
    (code, t) ∈ catalog := by
  obtain ⟨front, back, hcatalog, -⟩ := List.lookup_eq_some_iff.1 h
  rw [hcatalog]
  exact List.mem_append_right front List.mem_cons_self

/-- Only the pointer array has the form of one, and it carries no CRC of its own. -/
theorem of_family_pointers :
    ∀ r ∈ catalog, r.2.family = .pointers → r.1 = SectionCode.pointers ∧ r.2.place = .none := by
  decide

/-- Only the two tables have the form of one, and they carry no CRC of their own. -/
theorem of_family_toc : ∀ r ∈ catalog, r.2.family = .toc →
    (r.1 = SectionCode.itoc ∨ r.1 = SectionCode.dtoc) ∧ r.2.place = .none := by
  decide

/-- A CRC dword at the end of a section is always one of the software kind. -/
theorem algorithm_of_place_trailer :
    ∀ r ∈ catalog, r.2.place = .trailer → r.2.algorithm = .software := by
  decide

/-! ### Names in the catalog -/

/-- No two types have the same name. -/
theorem nodup_names : (catalog.map fun r => r.2.name).Nodup := by
  decide +kernel

/-- No name begins with another one and an underscore. -/
theorem catalog_not_prefix : ∀ r ∈ catalog, ∀ r' ∈ catalog,
    (r'.2.name.toList ++ ['_']).isPrefixOf r.2.name.toList = false := by
  decide +kernel

/-- Names are made from uppercase letters, digits and underscores, with a letter in front. -/
theorem catalog_isUpper_head : ∀ r ∈ catalog, r.2.name.toList.head?.any Char.isUpper = true := by
  decide +kernel

/-- No name looks like the one of an unknown type. -/
theorem catalog_not_unknown :
    ∀ r ∈ catalog, "UNKNOWN_".toList.isPrefixOf r.2.name.toList = false := by
  decide +kernel

/-- No name of a single word is the start of the name of an unknown type. -/
theorem catalog_not_word :
    ∀ r ∈ catalog, '_' ∈ r.2.name.toList ∨ r.2.name.toList.head? ≠ some 'U' := by
  decide +kernel

/-! ### Names of all types -/

/-- **A type is in the catalog or is named by its code.** -/
theorem name_cases (code : SectionCode) :
    (∃ t, (code, t) ∈ catalog ∧ code.name = t.name) ∨
      code.name.toList = "UNKNOWN".toList ++ '_' :: '0' :: 'x' ::
        (Text.hexUpper 2 code.toNat).toList := by
  cases htype : code.type? with
  | some t => exact .inl ⟨t, mem_catalog htype, by rw [name, htype]⟩
  | none =>
    right
    rw [name, htype]
    simp [toString]

/-- The digits of a code hold no underscore. -/
theorem underscore_notMem_digits (n : Nat) : '_' ∉ '0' :: 'x' :: (Text.hexUpper 2 n).toList := by
  intro h
  have hmem : '_' ∈ (Text.hexUpper 2 n).toList := by simpa using h
  have halpha : Char.isAlphanum '_' = true := isAlphanum_of_mem_hexUpper '_' hmem
  cases halpha

/-- The name of an unknown type has a single underscore. -/
theorem count_underscore {code : SectionCode} (h : code.name.toList = "UNKNOWN".toList ++ '_' :: '0' ::
    'x' :: (Text.hexUpper 2 code.toNat).toList) : code.name.toList.count '_' = 1 := by
  rw [h, List.count_append, List.count_cons_self,
    List.count_eq_zero_of_not_mem (underscore_notMem_digits _)]
  decide

/-- The name of a known type is not that of an unknown one. -/
theorem name_ne_unknown {code : SectionCode} {t : SectionType} (ht : (code, t) ∈ catalog)
    (rest : List Char) : t.name.toList ≠ "UNKNOWN".toList ++ '_' :: rest := by
  intro heq
  have hno := catalog_not_unknown _ ht
  rw [heq] at hno
  cases hno

/-- **No two types share a name.** -/
theorem name_injective {c c' : SectionCode} (h : c.name = c'.name) : c = c' := by
  rcases name_cases c with ⟨t, ht, hname⟩ | hname <;> rcases name_cases c' with ⟨t', ht', hname'⟩ | hname'
  · -- Two rows of the catalog with one name are one row.
    have hrow : ((c, t) : SectionCode × SectionType) = (c', t') :=
      List.inj_on_of_nodup_map nodup_names ht ht' (hname.symm.trans (h.trans hname'))
    exact (Prod.mk.inj hrow).1
  · rw [← h, hname] at hname'
    exact absurd hname' (name_ne_unknown ht _)
  · rw [h, hname'] at hname
    exact absurd hname (name_ne_unknown ht' _)
  · -- Both names are made from codes, and their digits tell the codes.
    rw [h, hname', List.append_cancel_left_eq, List.cons.injEq, List.cons.injEq, List.cons.injEq] at hname
    have hread := GapFile.readDigits_hexUpper 2 c'.toNat
    rw [hname.2.2.2, GapFile.readDigits_hexUpper] at hread
    exact UInt16.toNat_inj.1 (Option.some.inj hread)

/-- Every name starts with an uppercase letter. -/
theorem isUpper_head_name (code : SectionCode) :
    ∃ c cs, code.name.toList = c :: cs ∧ c.isUpper = true := by
  rcases name_cases code with ⟨t, ht, hname⟩ | hname
  · have hupper := catalog_isUpper_head _ ht
    rw [hname]
    cases hlist : t.name.toList with
    | nil => rw [hlist] at hupper; cases hupper
    | cons c cs =>
      rw [hlist] at hupper
      exact ⟨c, cs, rfl, hupper⟩
  · exact ⟨'U', _, hname, by decide⟩

/-- **No name begins with another one and an underscore.** -/
theorem not_name_prefix (c c' : SectionCode) : ¬ c'.name.toList ++ ['_'] <+: c.name.toList := by
  intro hprefix
  rcases name_cases c with ⟨t, ht, hname⟩ | hname
  · rcases name_cases c' with ⟨t', ht', hname'⟩ | hname'
    · -- Both are in the catalog, where it was checked for each pair.
      rw [hname, hname', ← List.isPrefixOf_iff_prefix, catalog_not_prefix _ ht _ ht'] at hprefix
      cases hprefix
    · -- A name made from a code would have to be the start of one in the catalog.
      rw [hname, hname'] at hprefix
      obtain ⟨rest, hrest⟩ := hprefix
      rw [List.append_assoc, List.append_assoc, List.cons_append] at hrest
      exact absurd hrest.symm (name_ne_unknown ht _)
  · -- There is one underscore in all, so the shorter name is a single word.
    have hcount := hprefix.sublist.count_le '_'
    rw [count_underscore hname, List.count_append, List.count_singleton_self] at hcount
    have hword : '_' ∉ c'.name.toList := List.count_eq_zero.1 (by omega)
    rcases name_cases c' with ⟨t', ht', hname'⟩ | hname'
    · rcases catalog_not_word _ ht' with hmem | hhead
      · exact hword (hname' ▸ hmem)
      · obtain ⟨d, ds, hds, -⟩ := isUpper_head_name c'
        rw [hname, hds, List.cons_append, show "UNKNOWN".toList = 'U' :: "NKNOWN".toList from rfl,
          List.cons_append, List.cons_prefix_cons] at hprefix
        exact hhead (by rw [← hname', hds, hprefix.1]; rfl)
    · exact hword (by rw [hname']; exact List.mem_append_right _ List.mem_cons_self)

end FlashImage.SectionCode
