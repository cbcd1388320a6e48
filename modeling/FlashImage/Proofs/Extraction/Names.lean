import FlashImage.Extraction
import FlashImage.Proofs.Catalog
import Mathlib.Data.List.Nodup

/-!
# No two files of an extraction share a name

The name of a section's file ends with the place of the section, which need not be the place of this
section alone. What tells sections apart is in front of that: the name of the type, and a number if
there are several of the type (`SectionPiece.baseName_injective`). Gaps are numbered, and neither their
files nor the index can be taken for a section, whose name starts with an uppercase letter. So all files
of an extraction have names of their own (`Extraction.nodup_written`).

## Parts

* taking a name apart at its last underscore;
* the names of sections, and of their files;
* the names of gaps;
* all names together.
-/

namespace FlashImage

/-! ### Taking names apart -/

/-- A list is taken apart at the last place of an element in only one way. -/
theorem append_cons_inj {α : Type} {x : α} {as bs cs ds : List α} (hcs : x ∉ cs) (hds : x ∉ ds)
    (h : as ++ x :: cs = bs ++ x :: ds) : as = bs ∧ cs = ds := by
  rcases List.append_eq_append_iff.1 h with ⟨more, hbs, hcons⟩ | ⟨more, has, hcons⟩
  · cases more with
    | nil =>
      rw [List.nil_append, List.cons.injEq] at hcons
      exact ⟨by rw [hbs, List.append_nil], hcons.2⟩
    | cons y more =>
      rw [List.cons_append, List.cons.injEq] at hcons
      exact absurd (hcons.2 ▸ List.mem_append_right more List.mem_cons_self) hcs
  · cases more with
    | nil =>
      rw [List.nil_append, List.cons.injEq] at hcons
      exact ⟨by rw [has, List.append_nil], hcons.2.symm⟩
    | cons y more =>
      rw [List.cons_append, List.cons.injEq] at hcons
      exact absurd (hcons.2 ▸ List.mem_append_right more List.mem_cons_self) hds

/-- Letters and digits hold no underscore. -/
theorem underscore_notMem {cs : List Char} (h : ∀ c ∈ cs, c.isAlphanum = true) : '_' ∉ cs := by
  intro hmem
  have halpha := h '_' hmem
  cases halpha

/-! ### Sections -/

namespace SectionPiece

/-- What tells sections apart: the name of the type, and the number if there is one. -/
def stem (code : SectionCode) : Option Nat → List Char
  | none => code.name.toList
  | some n => code.name.toList ++ '_' :: (Text.decimal n).toList

/-- The name of a section's files, character by character. -/
theorem toList_baseName (s : Section) (number : Option Nat) :
    (baseName s number).toList
      = stem s.code number ++ '_' :: '0' :: 'x' :: (Text.hex 8 s.offset).toList := by
  cases number with
  | none => simp [baseName, stem, Section.name, toString]
  | some n => simp [baseName, stem, Section.name, toString]

/-- A type with a number is not another type. -/
theorem stem_injective {code code' : SectionCode} {number number' : Option Nat}
    (h : stem code number = stem code' number') : code = code' ∧ number = number' := by
  -- A name and a number never make up another name: that is what the catalog is checked for.
  have hnever (c c' : SectionCode) (n : Nat) :
      c.name.toList ≠ c'.name.toList ++ '_' :: (Text.decimal n).toList := by
    intro heq
    refine SectionCode.not_name_prefix c c' ⟨(Text.decimal n).toList, ?_⟩
    rw [heq, List.append_assoc, List.singleton_append]
  cases number with
  | none =>
    cases number' with
    | none => exact ⟨SectionCode.name_injective (String.toList_inj.1 h), rfl⟩
    | some n' => exact absurd h (hnever code code' n')
  | some n =>
    cases number' with
    | none => exact absurd h.symm (hnever code' code n)
    | some n' =>
      obtain ⟨hname, hdigits⟩ := append_cons_inj (underscore_notMem isAlphanum_of_mem_decimal)
        (underscore_notMem isAlphanum_of_mem_decimal) h
      -- The same digits stand for the same number.
      have hread := GapFile.readDigits_decimal n
      rw [hdigits, GapFile.readDigits_decimal] at hread
      exact ⟨SectionCode.name_injective (String.toList_inj.1 hname), hread.symm⟩

/-- **The name of a section's files tells its type and its number.** -/
theorem baseName_injective {s t : Section} {number number' : Option Nat}
    (h : baseName s number = baseName t number') : s.code = t.code ∧ number = number' := by
  -- Names are taken apart in front of the place, which holds no underscore.
  have hplace (n : Nat) : '_' ∉ '0' :: 'x' :: (Text.hex 8 n).toList := by
    apply underscore_notMem
    rw [List.forall_mem_cons, List.forall_mem_cons]
    exact ⟨by decide, by decide, isAlphanum_of_mem_hex⟩
  have hlist := congrArg String.toList h
  rw [toList_baseName, toList_baseName] at hlist
  exact stem_injective (append_cons_inj (hplace _) (hplace _) hlist).1

/-- One more section is counted behind its own place. -/
theorem countP_take_succ {sections : List Section} {p : Section → Bool} {i j : Nat} (hij : i < j)
    {s : Section} (hs : sections[i]? = some s) (hp : p s = true) :
    (sections.take i).countP p + 1 ≤ (sections.take j).countP p := by
  have hsucc : sections.take (i + 1) = sections.take i ++ [s] := by
    rw [List.take_add_one, hs, Option.toList_some]
  have hsub : (sections.take (i + 1)).Sublist (sections.take j) :=
    (List.take_prefix_take_left hij).sublist
  have hcount := hsub.countP_le (p := p)
  rwa [hsucc, List.countP_append, List.countP_singleton, if_pos hp] at hcount

/-- **Sections of one type have different numbers**, as one comes before the other. -/
theorem numberAmong_ne {sections : List Section} {i j : Nat} (hij : i < j) {s t : Section}
    (hs : sections[i]? = some s) (ht : sections[j]? = some t) (hcode : s.code = t.code) :
    numberAmong sections (sections.take i) s ≠ numberAmong sections (sections.take j) t := by
  -- The first section is counted before the second, and the second one among all.
  have hlt := countP_take_succ (p := fun u => u.code = t.code) hij hs (decide_eq_true hcode)
  have hj : j < sections.length := (List.getElem?_eq_some_iff.1 ht).1
  have hall := countP_take_succ (p := fun u => u.code = t.code) hj ht (decide_eq_true rfl)
  rw [List.take_length] at hall
  rw [numberAmong, numberAmong, hcode, if_pos (by omega), if_pos (by omega)]
  intro heq
  have hcounts := Option.some.inj heq
  omega

/-- What tells the files of one section apart. -/
def extensions : List String := [".json", ".bin", ".ini"]

/-- A name is taken apart at the point in front of its extension. -/
theorem extension_injective {a b ext ext' : String} (hext : ext ∈ extensions)
    (hext' : ext' ∈ extensions) (h : a ++ ext = b ++ ext') : a = b ∧ ext = ext' := by
  -- An extension has its point in front and no other.
  have hpoint : ∀ e ∈ extensions, ∃ cs, e.toList = '.' :: cs ∧ '.' ∉ cs := by
    simp [extensions]
  obtain ⟨cs, hcs, hno⟩ := hpoint ext hext
  obtain ⟨cs', hcs', hno'⟩ := hpoint ext' hext'
  have hlist := congrArg String.toList h
  rw [String.toList_append, String.toList_append, hcs, hcs'] at hlist
  obtain ⟨hbase, hrest⟩ := append_cons_inj hno hno' hlist
  refine ⟨String.toList_inj.1 hbase, String.toList_inj.1 ?_⟩
  rw [hcs, hcs', hrest]

/-- The files of a section have its name and some of the extensions. -/
theorem map_fst_files (p : SectionPiece) :
    ∃ exts : List String, exts.Sublist extensions ∧ p.files.map Prod.fst = exts.map (p.base ++ ·) := by
  refine ⟨(if p.json.isSome then [".json"] else []) ++ (if p.binary.isSome then [".bin"] else [])
    ++ (if p.settings.isSome then [".ini"] else []), ?_, ?_⟩
  · cases p.json.isSome <;> cases p.binary.isSome <;> cases p.settings.isSome <;> decide
  · rw [files, jsonFile, binaryFile, settingsFile]
    cases p.json <;> cases p.binary <;> cases p.settings <;> rfl

/-- The files of a section have different names. -/
theorem nodup_map_fst_files (p : SectionPiece) : (p.files.map Prod.fst).Nodup := by
  obtain ⟨exts, hexts, hnames⟩ := p.map_fst_files
  rw [hnames]
  have hnodup : extensions.Nodup := by decide
  refine List.Nodup.map_on ?_ (hnodup.sublist hexts)
  intro e he e' he' heq
  exact (extension_injective (hexts.subset he) (hexts.subset he') heq).2

/-- Sections of different names have no file in common. -/
theorem disjoint_map_fst_files {p q : SectionPiece} (h : p.base ≠ q.base) :
    (p.files.map Prod.fst).Disjoint (q.files.map Prod.fst) := by
  obtain ⟨exts, hexts, hnames⟩ := p.map_fst_files
  obtain ⟨exts', hexts', hnames'⟩ := q.map_fst_files
  rw [hnames, hnames']
  intro name hp hq
  obtain ⟨e, he, rfl⟩ := List.mem_map.1 hp
  obtain ⟨e', he', heq⟩ := List.mem_map.1 hq
  exact h (extension_injective (hexts.subset he) (hexts'.subset he') heq.symm).1

end SectionPiece

namespace Extraction

/-- The sections of an extraction have names of their own. -/
theorem pairwise_base [Algorithms] (keepBinary : Bool) (sections : List Section) :
    (sectionPieces keepBinary sections).Pairwise fun p q => p.base ≠ q.base := by
  rw [sectionPieces, List.pairwise_map, List.pairwise_iff_getElem]
  intro i j hi hj hij
  rw [List.getElem_zipIdx, List.getElem_zipIdx]
  rw [List.length_zipIdx] at hi hj
  show SectionPiece.baseName _ _ ≠ SectionPiece.baseName _ _
  intro heq
  obtain ⟨hcode, hnumber⟩ := SectionPiece.baseName_injective heq
  rw [Nat.zero_add, Nat.zero_add] at hnumber
  exact SectionPiece.numberAmong_ne hij (List.getElem?_eq_getElem hi) (List.getElem?_eq_getElem hj)
    hcode hnumber

/-- The files of sections have names of their own. -/
theorem nodup_sectionFiles [Algorithms] (keepBinary : Bool) (sections : List Section) :
    (((sectionPieces keepBinary sections).flatMap SectionPiece.files).map Prod.fst).Nodup := by
  rw [List.map_flatMap, List.nodup_flatMap]
  refine ⟨fun p _ => p.nodup_map_fst_files, ?_⟩
  exact (pairwise_base keepBinary sections).imp fun h => SectionPiece.disjoint_map_fst_files h

/-! ### Gaps -/

/-- The name of a gap's file, with its number taken apart. -/
theorem toList_nameOf (number : Nat) (g : Gap) (imageEnd : Nat) :
    ∃ rest, (GapPiece.nameOf number g imageEnd).toList
      = "gaps/gap_".toList ++ ((Text.decimalPad 3 number).toList ++ '_' :: rest) := by
  simp [GapPiece.nameOf, GapPiece.directory, toString]

/-- The name of a gap's file tells its number. -/
theorem nameOf_injective {number number' : Nat} {g g' : Gap} {imageEnd : Nat}
    (h : GapPiece.nameOf number g imageEnd = GapPiece.nameOf number' g' imageEnd) :
    number = number' := by
  -- The number goes up to the first underscore, and its digits are read back.
  have hdigits (n : Nat) (rest : List Char) :
      ((Text.decimalPad 3 n).toList ++ '_' :: rest).takeWhile (· ≠ '_')
        = (Text.decimalPad 3 n).toList := by
    rw [List.takeWhile_append_of_pos, List.takeWhile_cons_of_neg (by decide), List.append_nil]
    intro c hc
    refine decide_eq_true fun heq => underscore_notMem isAlphanum_of_mem_decimalPad (heq ▸ hc)
  obtain ⟨rest, hname⟩ := toList_nameOf number g imageEnd
  obtain ⟨rest', hname'⟩ := toList_nameOf number' g' imageEnd
  have hlist := congrArg String.toList h
  rw [hname, hname', List.append_cancel_left_eq] at hlist
  have hfront := congrArg (List.takeWhile (· ≠ '_')) hlist
  rw [hdigits, hdigits] at hfront
  have hread := GapFile.readDigits_decimalPad 3 number
  rw [hfront, GapFile.readDigits_decimalPad] at hread
  exact (Option.some.inj hread).symm

/-- The files of gaps have names of their own. -/
theorem nodup_gapFiles (data : Bytes) (gaps : List Gap) :
    ((gapPieces data gaps).map GapPiece.fileName).Nodup := by
  rw [gapPieces, List.map_map, List.nodup_iff_pairwise_ne, List.pairwise_map, List.pairwise_iff_getElem]
  intro i j hi hj hij
  rw [List.getElem_zipIdx, List.getElem_zipIdx]
  show GapPiece.nameOf _ _ _ ≠ GapPiece.nameOf _ _ _
  intro heq
  have hnumber := nameOf_injective heq
  omega

/-! ### All files -/

/-- The file of a section starts with an uppercase letter. -/
theorem isUpper_head_sectionFile [Algorithms] {keepBinary : Bool} {sections : List Section}
    {name : String}
    (h : name ∈ ((sectionPieces keepBinary sections).flatMap SectionPiece.files).map Prod.fst) :
    ∃ c, name.toList.head? = some c ∧ c.isUpper = true := by
  rw [List.map_flatMap] at h
  obtain ⟨p, hp, hname⟩ := List.mem_flatMap.1 h
  obtain ⟨⟨s, i⟩, -, rfl⟩ := List.mem_map.1 hp
  obtain ⟨exts, -, hnames⟩ := SectionPiece.map_fst_files (.ofSection keepBinary
    (SectionPiece.baseName s (SectionPiece.numberAmong sections (sections.take i) s)) s)
  rw [hnames] at hname
  obtain ⟨ext, -, rfl⟩ := List.mem_map.1 hname
  -- A name starts with the type, whether the section is numbered or not.
  obtain ⟨c, cs, hcs, hupper⟩ := SectionCode.isUpper_head_name s.code
  have hstem (number : Option Nat) : ∃ ds, SectionPiece.stem s.code number = c :: ds := by
    cases number with
    | none => exact ⟨cs, hcs⟩
    | some n => exact ⟨_, by rw [SectionPiece.stem, hcs, List.cons_append]⟩
  obtain ⟨ds, hds⟩ := hstem (SectionPiece.numberAmong sections (sections.take i) s)
  refine ⟨c, ?_, hupper⟩
  show (SectionPiece.baseName s _ ++ ext).toList.head? = some c
  rw [String.toList_append, SectionPiece.toList_baseName, hds, List.cons_append, List.cons_append,
    List.head?_cons]

/-- The file of a gap starts with a lowercase letter. -/
theorem head_gapFile {data : Bytes} {gaps : List Gap} {name : String}
    (h : name ∈ (gapPieces data gaps).map GapPiece.fileName) : name.toList.head? = some 'g' := by
  obtain ⟨p, hp, rfl⟩ := List.mem_map.1 h
  obtain ⟨⟨g, n⟩, -, rfl⟩ := List.mem_map.1 hp
  obtain ⟨rest, hrest⟩ := toList_nameOf n g data.length
  exact congrArg List.head? hrest

/-- **All files of an extraction have names of their own.** -/
theorem nodup_written [Algorithms] (i : Image) (keepBinary : Bool) :
    ((i.extract keepBinary).written.map Prod.fst).Nodup := by
  have hnames : (i.extract keepBinary).written.map Prod.fst
      = ((sectionPieces (keepBinary || i.encrypted) i.sections).flatMap SectionPiece.files).map Prod.fst
        ++ (gapPieces i.data i.gaps).map GapPiece.fileName ++ [Metadata.fileName] := by
    rw [written, List.map_append, List.map_append, List.map_map]
    rfl
  -- Sections, gaps and the index differ in their first letters.
  rw [hnames, List.nodup_append', List.nodup_append']
  refine ⟨⟨nodup_sectionFiles _ _, nodup_gapFiles _ _, ?_⟩, List.nodup_singleton _, ?_⟩
  · intro name hsection hgap
    obtain ⟨c, hc, hupper⟩ := isUpper_head_sectionFile hsection
    rw [head_gapFile hgap, Option.some.injEq] at hc
    rw [← hc] at hupper
    cases hupper
  · rw [List.disjoint_singleton]
    intro hmem
    rcases List.mem_append.1 hmem with hsection | hgap
    · obtain ⟨c, hc, hupper⟩ := isUpper_head_sectionFile hsection
      rw [show Metadata.fileName.toList.head? = some 'f' from rfl, Option.some.injEq] at hc
      rw [← hc] at hupper
      cases hupper
    · have hhead := head_gapFile hgap
      rw [show Metadata.fileName.toList.head? = some 'f' from rfl] at hhead
      cases hhead

end Extraction

end FlashImage
