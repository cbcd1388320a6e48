import FlashImage.Proofs.Toc.RoundTrip
import Mathlib.Data.List.Chain
import Mathlib.Data.List.Nodup

/-!
# What is found to be wrong with a table

A table is checked in one pass over its entries. The pass remembers which pairs of type and address it
has met, without repetitions, and the address of the last entry, wherever that was (`Toc.Scan`). What it
finds depends on nothing else, and it finds what it would find if it kept all that it has met
(`Toc.found_scan`): a pair has been met before if an earlier entry has it, however often it was repeated
since, and the last address is that of the entry in front.

So what is found about an entry can be said by looking at the table alone (`Toc.Wrong`). Each of the four
things that can be wrong with an entry is reported in its own place (`Toc.place`), and reports are in the
order of their places, so none is made twice (`Toc.pairwise_place`). In particular a table is in order, or
without repetitions, exactly if no entry is reported not to be.

## Parts

* the pass over the entries;
* what is wrong with a table, and that this is what is found;
* the order of the findings, and what it means if there are none.
-/

namespace FlashImage

namespace TocEntry

/-- What an entry must not share with another one: its type and its address. -/
def key (e : TocEntry) : UInt8 × Nat := (e.type, e.address)

end TocEntry

namespace Toc

/-! ### One pass over the entries -/

/-- **What a pass over the entries of a table remembers**, beside what it has found so far. -/
structure Scan where
  /-- Types and addresses met so far, without repetitions. -/
  seen : List (UInt8 × Nat)
  /-- The address of the last entry. -/
  last : Option Nat
  found : List Diagnostic

namespace Scan

/-- **Passing one entry.** -/
def step (kind : TocKind) (s : Scan) (e : TocEntry) (index : Nat) : Scan where
  seen := if s.seen.contains e.key then s.seen else s.seen ++ [e.key]
  last := some e.address
  found := s.found
    ++ (match e.status with
      | .invalid stored computed => [.badEntryCrc kind index stored computed]
      | _ => [])
    ++ (if s.seen.contains e.key then [.duplicateEntry kind index e.code.name] else [])
    ++ (if s.last.any (e.address < ·) then [.outOfOrderEntry kind index e.address] else [])
    ++ (if kind = .itoc && e.deviceData then [.deviceDataInItoc index e.code.name] else [])

/-- **A pass that has met some types and addresses.** -/
structure Met (s : Scan) (keys : List (UInt8 × Nat)) : Prop where
  mem_seen : ∀ key, key ∈ s.seen ↔ key ∈ keys
  nodup : s.seen.Nodup
  last : s.last = keys.getLast?.map Prod.snd

variable {s : Scan} {keys : List (UInt8 × Nat)}

/-- One more entry has been met. -/
theorem Met.step (h : s.Met keys) (kind : TocKind) (e : TocEntry) (index : Nat) :
    (s.step kind e index).Met (keys ++ [e.key]) := by
  have hlast : (s.step kind e index).last = (keys ++ [e.key]).getLast?.map Prod.snd := by
    rw [List.getLast?_concat]
    rfl
  by_cases hseen : e.key ∈ s.seen
  · -- The entry repeats another one, so its key adds nothing.
    have hstep : (s.step kind e index).seen = s.seen := if_pos (List.contains_iff_mem.2 hseen)
    have hkeys : e.key ∈ keys := (h.mem_seen e.key).1 hseen
    refine ⟨fun key => ?_, hstep ▸ h.nodup, hlast⟩
    rw [hstep, h.mem_seen, List.mem_append, List.mem_singleton]
    exact ⟨.inl, fun hkey => hkey.elim id (· ▸ hkeys)⟩
  · have hstep : (s.step kind e index).seen = s.seen ++ [e.key] :=
      if_neg fun hmem => hseen (List.contains_iff_mem.1 hmem)
    refine ⟨fun key => ?_, ?_, hlast⟩
    · rw [hstep, List.mem_append, List.mem_append, h.mem_seen]
    · rw [hstep, ← List.concat_eq_append]
      exact h.nodup.concat hseen

/-- **What a pass finds about an entry** is what is wrong with it, given all entries before it. -/
theorem Met.found_step (h : s.Met keys) (kind : TocKind) (e : TocEntry) (index : Nat) :
    (s.step kind e index).found = s.found ++ entryFindings kind index keys e := by
  have hcontains : s.seen.contains e.key = keys.contains (e.type, e.address) := by
    rw [Bool.eq_iff_iff, List.contains_iff_mem, List.contains_iff_mem]
    exact h.mem_seen e.key
  have happend (old status repeated order device : List Diagnostic) :
      old ++ status ++ repeated ++ order ++ device
        = old ++ (status ++ repeated ++ order ++ device) := by
    simp only [List.append_assoc]
  rw [Scan.step, h.last, hcontains, entryFindings]
  cases keys.getLast? with
  | none => exact happend ..
  | some last =>
    simp only [Option.map_some, Option.any_some, decide_eq_true_eq]
    exact happend ..

/-- **Passing all entries** that are left. -/
theorem Met.found_foldl (h : s.Met keys) (kind : TocKind) (entries : List TocEntry) :
    ((entries.zipIdx keys.length).foldl (fun s (e, index) => s.step kind e index) s).found
      = s.found ++ (entries.zipIdx keys.length).flatMap fun (e, index) =>
          entryFindings kind index ((keys ++ entries.map TocEntry.key).take index) e := by
  -- By induction on what is left; what was met so far grows by one entry at a time.
  induction entries generalizing s keys with
  | nil => simp
  | cons e entries ih =>
    have hrest := ih (h.step kind e keys.length)
    rw [List.length_append, List.length_singleton, List.append_assoc, List.singleton_append,
      h.found_step] at hrest
    rw [List.zipIdx_cons, List.foldl_cons, List.map_cons, List.flatMap_cons]
    dsimp only
    rw [List.take_left, hrest, List.append_assoc]

end Scan

/-- **The pass over a table** at an address. -/
def scan (t : Toc) (address : Nat) : Scan :=
  t.entries.zipIdx.foldl (fun s (e, index) => s.step t.kind e index)
    ⟨[], none, t.headerFindings address⟩

/-- **The pass finds what is wrong with the table.** -/
theorem found_scan (t : Toc) (address : Nat) : (t.scan address).found = t.findings address := by
  have hstart : (⟨[], none, t.headerFindings address⟩ : Scan).Met [] := ⟨by simp, by simp, rfl⟩
  exact hstart.found_foldl t.kind t.entries

/-! ### What is wrong with a table -/

/-- **What is wrong with a table** that stands at an address of an image, said without a pass over it. -/
def Wrong (t : Toc) (address imageSize : Nat) : Diagnostic → Prop
  | .badHeaderCrc kind found stored computed =>
    kind = t.kind ∧ found = address ∧ t.header.status = .invalid stored computed
  | .badEntryCrc kind i stored computed =>
    kind = t.kind ∧ ∃ e, t.entries[i]? = some e ∧ e.status = .invalid stored computed
  | .duplicateEntry kind i type =>
    kind = t.kind ∧ ∃ e, t.entries[i]? = some e ∧ type = e.code.name ∧
      ∃ j < i, ∃ f, t.entries[j]? = some f ∧ f.type = e.type ∧ f.address = e.address
  | .outOfOrderEntry kind i found =>
    kind = t.kind ∧ 0 < i ∧ ∃ e f, t.entries[i]? = some e ∧ t.entries[i - 1]? = some f ∧
      e.address < f.address ∧ found = e.address
  | .deviceDataInItoc i type =>
    t.kind = .itoc ∧ ∃ e, t.entries[i]? = some e ∧ e.deviceData = true ∧ type = e.code.name
  | .truncated what offset length size =>
    t.endMarker = none ∧ what = s!"{t.kind.name} entries" ∧ offset = address ∧
      length = t.size + TocRecord.size ∧ size = imageSize
  | _ => False

variable {t : Toc} {address imageSize : Nat} {x : Diagnostic}

/-- What is found about an entry is one of four things. -/
theorem mem_entryFindings {kind : TocKind} {i : Nat} {keys : List (UInt8 × Nat)} {e : TocEntry} :
    x ∈ entryFindings kind i keys e ↔
      (∃ stored computed, e.status = .invalid stored computed ∧
        x = .badEntryCrc kind i stored computed) ∨
      (e.key ∈ keys ∧ x = .duplicateEntry kind i e.code.name) ∨
      (∃ last, keys.getLast? = some last ∧ e.address < last.2 ∧
        x = .outOfOrderEntry kind i e.address) ∨
      (kind = .itoc ∧ e.deviceData = true ∧ x = .deviceDataInItoc i e.code.name) := by
  rw [entryFindings, List.mem_append, List.mem_append, List.mem_append, or_assoc, or_assoc]
  refine or_congr ?_ (or_congr ?_ (or_congr ?_ ?_))
  · cases e.status <;> simp
  · simp [TocEntry.key]
  · cases keys.getLast? <;> simp
  · simp [and_assoc]

/-- The keys of the entries in front of a place. -/
theorem mem_take_keys {entries : List TocEntry} {i : Nat} {e : TocEntry} :
    e.key ∈ (entries.map TocEntry.key).take i ↔
      ∃ j < i, ∃ f, entries[j]? = some f ∧ f.type = e.type ∧ f.address = e.address := by
  rw [← List.map_take, List.mem_map]
  simp only [List.mem_iff_getElem?, List.getElem?_take]
  constructor
  · rintro ⟨f, ⟨j, hj⟩, hkey⟩
    obtain ⟨htype, haddress⟩ := Prod.mk.inj hkey
    obtain ⟨hji, hf⟩ := Option.ite_none_right_eq_some.1 hj
    exact ⟨j, hji, f, hf, htype, haddress⟩
  · rintro ⟨j, hji, f, hf, htype, haddress⟩
    exact ⟨f, ⟨j, by rw [if_pos hji, hf]⟩, Prod.ext htype haddress⟩

/-- The last key in front of an entry is that of the entry before it. -/
theorem getLast?_take_keys {entries : List TocEntry} {i : Nat} {e : TocEntry}
    (h : entries[i]? = some e) {key : UInt8 × Nat} :
    ((entries.map TocEntry.key).take i).getLast? = some key ↔
      0 < i ∧ ∃ f, entries[i - 1]? = some f ∧ f.key = key := by
  obtain ⟨hi, -⟩ := List.getElem?_eq_some_iff.1 h
  rw [List.getLast?_take]
  rcases Nat.eq_zero_or_pos i with rfl | hpos
  · simp
  · have hlt : i - 1 < entries.length := by omega
    simp [Nat.pos_iff_ne_zero.1 hpos, hpos, List.getElem?_eq_getElem hlt]

/-- **What is found about an entry of a table.** -/
theorem mem_entryFindings_take {kind : TocKind} {entries : List TocEntry} {i : Nat} {e : TocEntry}
    (h : entries[i]? = some e) :
    x ∈ entryFindings kind i ((entries.map TocEntry.key).take i) e ↔
      (∃ stored computed, e.status = .invalid stored computed ∧
        x = .badEntryCrc kind i stored computed) ∨
      ((∃ j < i, ∃ f, entries[j]? = some f ∧ f.type = e.type ∧ f.address = e.address) ∧
        x = .duplicateEntry kind i e.code.name) ∨
      ((0 < i ∧ ∃ f, entries[i - 1]? = some f ∧ e.address < f.address) ∧
        x = .outOfOrderEntry kind i e.address) ∨
      (kind = .itoc ∧ e.deviceData = true ∧ x = .deviceDataInItoc i e.code.name) := by
  rw [mem_entryFindings, mem_take_keys]
  refine or_congr Iff.rfl (or_congr Iff.rfl (or_congr ?_ Iff.rfl))
  simp only [getLast?_take_keys h]
  constructor
  · rintro ⟨-, ⟨hpos, f, hf, rfl⟩, hlt, rfl⟩
    exact ⟨⟨hpos, f, hf, hlt⟩, rfl⟩
  · rintro ⟨⟨hpos, f, hf, hlt⟩, rfl⟩
    exact ⟨f.key, ⟨hpos, f, hf, rfl⟩, hlt, rfl⟩

/-- **What is found about a table**, its end apart: the failed check of its header, and what is found about
each of its entries. -/
theorem mem_findings : x ∈ t.findings address ↔
    (∃ stored computed, t.header.status = .invalid stored computed ∧
      x = .badHeaderCrc t.kind address stored computed) ∨
    ∃ i e, t.entries[i]? = some e ∧
      x ∈ entryFindings t.kind i ((t.entries.map TocEntry.key).take i) e := by
  rw [findings, List.mem_append, List.mem_flatMap]
  refine or_congr ?_ ⟨?_, ?_⟩
  · rw [headerFindings]
    cases t.header.status <;> simp
  · rintro ⟨⟨e, i⟩, he, hx⟩
    exact ⟨i, e, List.mk_mem_zipIdx_iff_getElem?.1 he, hx⟩
  · rintro ⟨i, e, he, hx⟩
    exact ⟨(e, i), List.mk_mem_zipIdx_iff_getElem?.2 he, hx⟩

theorem mem_endFindings : x ∈ t.endFindings address imageSize ↔ t.endMarker = none ∧
    x = .truncated s!"{t.kind.name} entries" address (t.size + TocRecord.size) imageSize := by
  rw [endFindings]
  cases t.endMarker <;> simp

/-- **What is found is what is wrong**, and all of it. -/
theorem mem_findings_iff_wrong :
    x ∈ t.findings address ++ t.endFindings address imageSize ↔ t.Wrong address imageSize x := by
  rw [List.mem_append, mem_findings, mem_endFindings]
  constructor
  · rintro ((⟨stored, computed, hstatus, rfl⟩ | ⟨i, e, he, hx⟩) | ⟨hend, rfl⟩)
    · exact ⟨rfl, rfl, hstatus⟩
    · -- One of the four things that can be wrong with an entry.
      rcases (mem_entryFindings_take he).1 hx with ⟨stored, computed, hstatus, rfl⟩ | ⟨hrepeats, rfl⟩ |
        ⟨⟨hpos, f, hf, hlt⟩, rfl⟩ | ⟨hkind, hdevice, rfl⟩
      · exact ⟨rfl, e, he, hstatus⟩
      · exact ⟨rfl, e, he, rfl, hrepeats⟩
      · exact ⟨rfl, hpos, e, f, he, hf, hlt, rfl⟩
      · exact ⟨hkind, e, he, hdevice, rfl⟩
    · exact ⟨hend, rfl, rfl, rfl, rfl⟩
  · intro hwrong
    cases x with
    | badHeaderCrc kind found stored computed =>
      obtain ⟨rfl, rfl, hstatus⟩ := hwrong
      exact .inl (.inl ⟨stored, computed, hstatus, rfl⟩)
    | badEntryCrc kind i stored computed =>
      obtain ⟨rfl, e, he, hstatus⟩ := hwrong
      exact .inl (.inr ⟨i, e, he, (mem_entryFindings_take he).2 (.inl ⟨stored, computed, hstatus, rfl⟩)⟩)
    | duplicateEntry kind i type =>
      obtain ⟨rfl, e, he, rfl, hrepeats⟩ := hwrong
      exact .inl (.inr ⟨i, e, he, (mem_entryFindings_take he).2 (.inr (.inl ⟨hrepeats, rfl⟩))⟩)
    | outOfOrderEntry kind i found =>
      obtain ⟨rfl, hpos, e, f, he, hf, hlt, rfl⟩ := hwrong
      exact .inl (.inr ⟨i, e, he,
        (mem_entryFindings_take he).2 (.inr (.inr (.inl ⟨⟨hpos, f, hf, hlt⟩, rfl⟩)))⟩)
    | deviceDataInItoc i type =>
      obtain ⟨hkind, e, he, hdevice, rfl⟩ := hwrong
      exact .inl (.inr ⟨i, e, he, (mem_entryFindings_take he).2 (.inr (.inr (.inr ⟨hkind, hdevice, rfl⟩)))⟩)
    | truncated what offset length size =>
      obtain ⟨hend, rfl, rfl, rfl, rfl⟩ := hwrong
      exact .inr ⟨hend, rfl⟩
    | badPointerCrc | badSectionCrc | badTocSignature | sectionOverlap | decodeFailure
    | unknownSectionType => exact hwrong.elim

/-! ### The order of findings -/

/-- **The place of a finding** among those about a table: the header first, then four places for each
entry, and the missing end last. -/
def place (t : Toc) : Diagnostic → Nat
  | .badHeaderCrc .. => 0
  | .badEntryCrc _ i _ _ => 4 * i + 1
  | .duplicateEntry _ i _ => 4 * i + 2
  | .outOfOrderEntry _ i _ => 4 * i + 3
  | .deviceDataInItoc i _ => 4 * i + 4
  | _ => 4 * t.entries.length + 1

/-- The findings about one entry are in the order of their places, which are those of the entry. -/
theorem map_place_entryFindings (t : Toc) (kind : TocKind) (i : Nat) (keys : List (UInt8 × Nat))
    (e : TocEntry) :
    ((entryFindings kind i keys e).map t.place).Sublist
      ([4 * i + 1] ++ [4 * i + 2] ++ [4 * i + 3] ++ [4 * i + 4]) := by
  have hite (c : Prop) [Decidable c] {x : Diagnostic} {n : Nat} (hx : t.place x = n) :
      ((if c then [x] else []).map t.place).Sublist [n] := by
    split
    · rw [List.map_singleton, hx]
    · exact List.nil_sublist _
  rw [entryFindings, List.map_append, List.map_append, List.map_append]
  refine ((List.Sublist.append ?_ (hite _ rfl)).append ?_).append (hite _ rfl)
  · cases e.status <;> simp [place]
  · cases keys.getLast? with
    | none => exact List.nil_sublist _
    | some last => exact hite _ rfl

theorem pairwise_entryFindings (t : Toc) (kind : TocKind) (i : Nat) (keys : List (UInt8 × Nat))
    (e : TocEntry) : (entryFindings kind i keys e).Pairwise (t.place · < t.place ·) := by
  refine List.pairwise_map.1 (List.Pairwise.sublist (map_place_entryFindings t kind i keys e) ?_)
  simp

theorem place_entryFindings {kind : TocKind} {i : Nat} {keys : List (UInt8 × Nat)} {e : TocEntry}
    (h : x ∈ entryFindings kind i keys e) : 4 * i < t.place x ∧ t.place x ≤ 4 * (i + 1) := by
  have hmem := (map_place_entryFindings t kind i keys e).subset (List.mem_map_of_mem h)
  simp only [List.mem_append, List.mem_singleton] at hmem
  omega

/-- The findings about all entries are in order, behind the header and in front of the end. -/
theorem pairwise_findings (t : Toc) (address : Nat) :
    (t.findings address).Pairwise (t.place · < t.place ·) ∧
      ∀ x ∈ t.findings address, t.place x ≤ 4 * t.entries.length := by
  have hheader : (t.headerFindings address).Pairwise (t.place · < t.place ·) ∧
      ∀ x ∈ t.headerFindings address, t.place x = 0 := by
    rw [headerFindings]
    cases t.header.status <;> simp [place]
  have hentry (p : TocEntry × Nat) (hp : p ∈ t.entries.zipIdx) (x : Diagnostic)
      (hx : x ∈ entryFindings t.kind p.2 ((t.entries.map TocEntry.key).take p.2) p.1) :
      4 * p.2 < t.place x ∧ t.place x ≤ 4 * (p.2 + 1) ∧ p.2 < t.entries.length := by
    obtain ⟨hi, -⟩ := List.getElem?_eq_some_iff.1 (List.mk_mem_zipIdx_iff_getElem?.1 hp)
    obtain ⟨hlow, hhigh⟩ := place_entryFindings (t := t) hx
    exact ⟨hlow, hhigh, hi⟩
  have hindex : t.entries.zipIdx.Pairwise (·.2 < ·.2) := by
    rw [← List.pairwise_map, List.zipIdx_map_snd]
    exact List.pairwise_lt_range' 1
  refine ⟨List.pairwise_append.2 ⟨hheader.1, List.pairwise_flatMap.2 ⟨?_, ?_⟩, ?_⟩, fun x hx => ?_⟩
  · exact fun p _ => pairwise_entryFindings t t.kind p.2 _ p.1
  · -- Entries have their places one after the other.
    refine (List.Pairwise.imp_of_mem ?_ hindex)
    intro p q hp hq hlt x hx y hy
    have hx := hentry p hp x hx
    have hy := hentry q hq y hy
    omega
  · intro x hx y hy
    obtain ⟨p, hp, hy⟩ := List.mem_flatMap.1 hy
    have hplace := hentry p hp y hy
    rw [hheader.2 x hx]
    omega
  · rcases List.mem_append.1 hx with hx | hx
    · rw [hheader.2 x hx]
      exact Nat.zero_le _
    · obtain ⟨p, hp, hx⟩ := List.mem_flatMap.1 hx
      have hplace := hentry p hp x hx
      omega

/-- **Findings are in the order of their places**, so no finding is made twice. -/
theorem pairwise_place (t : Toc) (address imageSize : Nat) :
    (t.findings address ++ t.endFindings address imageSize).Pairwise (t.place · < t.place ·) := by
  obtain ⟨hfindings, hplace⟩ := t.pairwise_findings address
  have hend : (t.endFindings address imageSize).Pairwise (t.place · < t.place ·) ∧
      ∀ x ∈ t.endFindings address imageSize, t.place x = 4 * t.entries.length + 1 := by
    rw [endFindings]
    cases t.endMarker <;> simp [place]
  refine List.pairwise_append.2 ⟨hfindings, hend.1, fun x hx y hy => ?_⟩
  rw [hend.2 y hy]
  exact Nat.lt_succ_of_le (hplace x hx)

/-! ### Tables with nothing wrong in their order -/

/-- **A table is in order** exactly if no entry is in front of the one before it. -/
theorem pairwise_address_iff (t : Toc) (address imageSize : Nat) :
    t.entries.Pairwise (·.address ≤ ·.address) ↔
      ∀ i found, ¬ t.Wrong address imageSize (.outOfOrderEntry t.kind i found) := by
  rw [← List.isChain_iff_pairwise (R := fun e f : TocEntry => e.address ≤ f.address),
    List.isChain_iff_getElem]
  constructor
  · rintro hchain i found ⟨-, hpos, e, f, he, hf, hlt, -⟩
    obtain ⟨hi, rfl⟩ := List.getElem?_eq_some_iff.1 he
    obtain ⟨hi', rfl⟩ := List.getElem?_eq_some_iff.1 hf
    have hle := hchain (i - 1) (by omega)
    simp only [Nat.sub_add_cancel hpos] at hle
    omega
  · intro hnone i hi
    refine Nat.le_of_not_lt fun hlt => hnone (i + 1) _ ⟨rfl, Nat.succ_pos i, _, _,
      List.getElem?_eq_getElem hi, List.getElem?_eq_getElem (Nat.lt_of_succ_lt hi), hlt, rfl⟩

/-- **A table does not repeat itself** exactly if no entry has the key of an earlier one. -/
theorem nodup_key_iff (t : Toc) (address imageSize : Nat) :
    (t.entries.map TocEntry.key).Nodup ↔
      ∀ i type, ¬ t.Wrong address imageSize (.duplicateEntry t.kind i type) := by
  rw [List.Nodup, List.pairwise_map, List.pairwise_iff_getElem]
  constructor
  · rintro hnodup i type ⟨-, e, he, -, j, hji, f, hf, htype, haddress⟩
    obtain ⟨hi, rfl⟩ := List.getElem?_eq_some_iff.1 he
    obtain ⟨hj, rfl⟩ := List.getElem?_eq_some_iff.1 hf
    exact hnodup j i hj hi hji (Prod.ext htype haddress)
  · intro hnone j i hj hi hji hkey
    obtain ⟨htype, haddress⟩ := Prod.mk.inj hkey
    exact hnone i _ ⟨rfl, _, List.getElem?_eq_getElem hi, rfl, j, hji, _, List.getElem?_eq_getElem hj,
      htype, haddress⟩

/-! ### What reading a table reports -/

/-- **What reading a table reports** about it. -/
structure ReportsExactly (data : Bytes) (address : Nat) (t : Toc) (found : List Diagnostic) : Prop where
  /-- One pass over the entries finds it, but for the missing end. -/
  pass : found = (t.scan address).found ++ t.endFindings address data.length
  /-- It is what is wrong with the table, and all of it. -/
  mem_iff : ∀ x, x ∈ found ↔ t.Wrong address data.length x
  /-- It is in order, and nothing is reported twice. -/
  sorted : found.Pairwise (t.place · < t.place ·)
  /-- No entry is reported to be out of order exactly if the addresses never decrease. -/
  inOrder : (∀ i a, .outOfOrderEntry t.kind i a ∉ found) ↔ t.entries.Pairwise (·.address ≤ ·.address)
  /-- No entry is reported to be a duplicate exactly if no two have the same type and address. -/
  distinct : (∀ i type, .duplicateEntry t.kind i type ∉ found) ↔ (t.entries.map TocEntry.key).Nodup
  /-- Whatever is reported, the entries are the records behind the header, up to the first end marker. -/
  retained : t.entries.map TocEntry.encode
    = (TocRecord.wholes ((data.drop address).drop TocRecord.size)).takeWhile (!TocRecord.marksEnd ·)

/-- **Reading a table reports exactly what is wrong with it.** -/
theorem reportsExactly_of_read {data : Bytes} {address : Nat} {t : Toc} {found : List Diagnostic}
    (h : Toc.read data address = .ok (t, found)) : ReportsExactly data address t found := by
  obtain ⟨-, hdecode, hfound⟩ := of_read h
  have hmem (x : Diagnostic) : x ∈ found ↔ t.Wrong address data.length x := by
    rw [hfound]
    exact mem_findings_iff_wrong
  exact {
    pass := by rw [hfound, found_scan]
    mem_iff := hmem
    sorted := hfound ▸ t.pairwise_place address data.length
    inOrder := by
      rw [pairwise_address_iff t address data.length]
      exact forall_congr' fun i => forall_congr' fun a => not_congr (hmem _)
    distinct := by
      rw [nodup_key_iff t address data.length]
      exact forall_congr' fun i => forall_congr' fun type => not_congr (hmem _)
    retained := (map_encode_of_decode hdecode).1 }

/-- **A table with repeated faults**: two sections, each with two entries, and the second one in front of
the first. No record has a CRC, the second entry claims device data, and there is no end marker. -/
def faultyTable : Bytes :=
  Bytes.ofDwords [TocKind.itoc.signature, 0, 0, 0, 0, 0, 0, 0]
    ++ Bytes.ofDwords [0x01000000, 0, 0, 0, 0, 4, 0, 0]
    ++ Bytes.ofDwords [0x01000000, 0, 0, 0, 0, 2, 0x20000, 0]
    ++ Bytes.ofDwords [0x01000000, 0, 0, 0, 0, 4, 0, 0]
    ++ Bytes.ofDwords [0x01000000, 0, 0, 0, 0, 2, 0, 0]

/-- Both later entries of the faulty table are duplicates, and the last one is out of order once more. -/
theorem reportsExactly_faultyTable : ∃ t found, Toc.read faultyTable 0 = .ok (t, found) ∧
    ReportsExactly faultyTable 0 t found ∧
    found.map t.place = [0, 1, 5, 7, 8, 9, 10, 13, 14, 15, 17] := by
  have hread : (Toc.read faultyTable 0).toOption.map (fun (t, found) => found.map t.place)
      = some [0, 1, 5, 7, 8, 9, 10, 13, 14, 15, 17] := by decide +kernel
  cases h : Toc.read faultyTable 0 with
  | error e =>
    rw [h] at hread
    cases hread
  | ok p =>
    rw [h] at hread
    exact ⟨p.1, p.2, rfl, reportsExactly_of_read h, Option.some.inj hread⟩

end Toc

end FlashImage
