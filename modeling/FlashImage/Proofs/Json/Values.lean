import FlashImage.Json.Decode
import FlashImage.Proofs.Text.Digits
import Mathlib.Algebra.Group.Nat.Defs

/-!
# Values are read out of the JSON they are written to

Each way to write a value in JSON has its own way to be read out again. The lemmas here say so for the
simple values, for lists and for values that may be absent, and once for all records
(`fieldsFrom?_record`): the fields asked for come back in the order asked for, as long as no two members
share a name. A record type then needs no more than its own list of names.
-/

namespace FlashImage.Json

/-! ### Simple values -/

/-- A natural number below the bound is read back. -/
theorem asNat?_nat {bound n : Nat} (h : n < bound) : (nat n).asNat? bound = some n := by
  have hall : (Bytes.ofString (Text.decimal n)).all isDigit = true := by
    rw [List.all_eq_true]
    exact fun b hb => isDigit_of_mem_decimal hb
  rw [nat, asNat?, digitsValue_decimal, hall, decide_eq_true h]
  rfl

theorem asSize?_nat {n : Nat} (h : n < 2 ^ 64) : (nat n).asSize? = some n := asNat?_nat h

@[simp] theorem asU8?_nat (x : UInt8) : (nat x.toNat).asU8? = some x := by
  rw [asU8?, asNat?_nat x.toNat_lt, Option.map_some, UInt8.ofNat_toNat]

@[simp] theorem asU16?_nat (x : UInt16) : (nat x.toNat).asU16? = some x := by
  rw [asU16?, asNat?_nat x.toNat_lt, Option.map_some, UInt16.ofNat_toNat]

@[simp] theorem asU32?_nat (x : UInt32) : (nat x.toNat).asU32? = some x := by
  rw [asU32?, asNat?_nat x.toNat_lt, Option.map_some, UInt32.ofNat_toNat]

@[simp] theorem asU64?_nat (x : UInt64) : (nat x.toNat).asU64? = some x := by
  rw [asU64?, asNat?_nat x.toNat_lt, Option.map_some, UInt64.ofNat_toNat]

@[simp] theorem asText?_text (s : String) : (text s).asText? = some s := Bytes.toString?_ofString s

@[simp] theorem asBool?_bool (b : Bool) : (bool b).asBool? = some b := rfl

/-! ### Lists and values that may be absent -/

/-- A list is read back if its items are. -/
theorem asList?_list {α : Type} {f : α → Json} {g : Json → Option α} {as : List α}
    (h : ∀ a ∈ as, g (f a) = some a) : (list f as).asList? g = some as := by
  show (as.map f).mapM g = some as
  induction as with
  | nil => rfl
  | cons a as ih =>
    obtain ⟨ha, has⟩ := List.forall_mem_cons.1 h
    rw [List.map_cons, List.mapM_cons, ha, ih has]
    rfl

@[simp] theorem given?_some {α : Type} (f : Json → Option α) (j : Json) :
    given? f (some j) = f j := rfl

/-- A value that may be absent is read back, unless `null` can be read as one that is not. -/
theorem optional?_option {α : Type} {f : α → Json} {g : Json → Option α} {a : Option α}
    (hnull : g null = none) (h : ∀ x ∈ a, g (f x) = some x) :
    optional? g (some (option f a)) = some a := by
  cases a with
  | none => rfl
  | some x =>
    have hx : g (f x) = some x := h x rfl
    -- `optional?` looks for `null` first, so what is written must not be that.
    have hne : f x ≠ null := by
      intro heq
      rw [heq, hnull] at hx
      cases hx
    rw [option, optional?, asOption?, hx, Option.map_some]
    exact hne

/-! ### Records -/

/-- The members of a record keep their names. -/
theorem mapM_toString?_members (members : List (String × Json)) :
    (members.map fun m => (Bytes.ofString m.1, m.2)).mapM
      (fun m : Bytes × Json => (Bytes.toString? m.1).map (·, m.2)) = some members := by
  induction members with
  | nil => rfl
  | cons m members ih =>
    rw [List.map_cons, List.mapM_cons, Bytes.toString?_ofString, Option.map_some, ih]
    rfl

/-- Reading fields out of a record is looking up their names. -/
theorem fieldsFrom?_record (required : Nat) (names : List String) (members : List (String × Json)) :
    (record members).fieldsFrom? required names = names.mapM (valueOf? members) := by
  rw [record, fieldsFrom?, mapM_toString?_members]
  rfl

/-- A member is found by its name, if no other has it. -/
theorem valueOf?_of_mem {members : List (String × Json)} {m : String × Json} (hm : m ∈ members)
    (h : (members.map Prod.fst).Nodup) : valueOf? members m.1 = some (some m.2) := by
  have hone : valuesOf m.1 members = [m.2] := by
    induction members with
    | nil => cases hm
    | cons x members ih =>
      rw [List.map_cons, List.nodup_cons] at h
      rcases List.mem_cons.1 hm with rfl | hm
      · -- The member is in front, and no other one has its name.
        have hnone : members.filter (·.1 = m.1) = [] := by
          rw [List.filter_eq_nil_iff]
          intro y hy heq
          exact h.1 (List.mem_map.2 ⟨y, hy, of_decide_eq_true heq⟩)
        rw [valuesOf, List.filter_cons_of_pos (by simp), hnone]
        rfl
      · have hne : x.1 ≠ m.1 := fun heq => h.1 (heq ▸ List.mem_map_of_mem hm)
        rw [valuesOf, List.filter_cons_of_neg (by simpa using hne)]
        exact ih hm h.2
  rw [valueOf?, hone]

/-- **Some of the members of a record** are read back by their names. -/
theorem fieldsFrom?_of_subset {members kept : List (String × Json)} (hkept : kept ⊆ members)
    (h : (members.map Prod.fst).Nodup) (required : Nat) :
    (record members).fieldsFrom? required (kept.map Prod.fst) = some (kept.map fun m => some m.2) := by
  rw [fieldsFrom?_record]
  induction kept with
  | nil => rfl
  | cons m kept ih =>
    obtain ⟨hm, hkept⟩ := List.cons_subset.1 hkept
    rw [List.map_cons, List.mapM_cons, valueOf?_of_mem hm h, ih hkept]
    rfl

/-- **All members of a record** are read back by their names. -/
theorem fields?_record {members : List (String × Json)} {names : List String}
    (hnames : members.map Prod.fst = names) (h : names.Nodup) :
    (record members).fields? names = some (members.map fun m => some m.2) := by
  subst hnames
  exact fieldsFrom?_of_subset (List.Subset.refl _) h _

/-- All members of a record but one are read back by their names. -/
theorem fields?_eraseIdx (k : Nat) {members : List (String × Json)} {names : List String}
    (hnames : (members.eraseIdx k).map Prod.fst = names) (h : (members.map Prod.fst).Nodup) :
    (record members).fields? names = some ((members.eraseIdx k).map fun m => some m.2) := by
  subst hnames
  exact fieldsFrom?_of_subset (List.eraseIdx_sublist members k).subset h _

/-! ### Variants -/

@[simp] theorem asVariant?_text (name : String) : (text name).asVariant? = some (name, none) := by
  rw [text, asVariant?, Bytes.toString?_ofString, Option.map_some]

@[simp] theorem asVariant?_variant (name : String) (payload : Json) :
    (variant name payload).asVariant? = some (name, some payload) := by
  show (Bytes.toString? (Bytes.ofString name)).map (·, some payload) = _
  rw [Bytes.toString?_ofString, Option.map_some]

end FlashImage.Json
