import OrcaOS.Proof.ImageRead
import OrcaOS.Proof.StringCompare

/-!
The search for a name compares 31 characters, so it is exact only where no other name agrees in them.
-/

namespace OrcaOS
open Foundation

/-- Where each match is preceded by a strict match, the search finds the first strict match. -/
theorem find?_range_eq {count : Nat} {loose strict : Nat → Bool} (weaker : ∀ index, strict index → loose index)
    (preceded : ∀ index < count, loose index → ∃ earlier ≤ index, strict earlier) :
    (List.range count).find? loose = (List.range count).find? strict := by
  cases found : (List.range count).find? strict with
  | none =>
      rw [List.find?_range_eq_none] at found ⊢
      intro index inside
      rw [Bool.not_eq_true']
      apply Bool.eq_false_of_not_eq_true
      intro matched
      obtain ⟨earlier, before, exactly⟩ := preceded index inside matched
      simpa [exactly] using found earlier (by omega)
  | some index =>
      rw [List.find?_range_eq_some] at found ⊢
      obtain ⟨exactly, member, first⟩ := found
      refine ⟨weaker index exactly, member, fun other before => ?_⟩
      rw [Bool.not_eq_true']
      apply Bool.eq_false_of_not_eq_true
      intro matched
      have inside := List.mem_range.mp member
      obtain ⟨earlier, earliest, exactly⟩ := preceded other (by omega) matched
      simpa [exactly] using first earlier (by omega)

namespace Image
variable {image : Image} {fname : List UInt8}

/-- The entries that agree with the name in the characters that the search compares. -/
def AgreesWith (image : Image) (fname : List UInt8) (index : Nat) : Prop :=
  fname.take 31 = (image.entryName index).take 31

instance (image : Image) (fname : List UInt8) (index : Nat) : Decidable (image.AgreesWith fname index) :=
  inferInstanceAs (Decidable (fname.take 31 = (image.entryName index).take 31))

theorem length_entryName_le (image : Image) (index : Nat) : (image.entryName index).length ≤ 32 := by
  have shorter := (List.takeWhile_prefix (fun character : UInt8 => character ≠ 0) (l :=
    (List.range 32).map fun offset => image.memory (image.entryBlock index + offset))).length_le
  rw [List.length_map, List.length_range] at shorter
  exact shorter

theorem strncmp_eq_zero_iff_agreesWith (image : Image) (ended : 0 ∉ fname) (index : Nat) :
    strncmp (cString fname)
        (fun offset => image.mount.memory (image.mount.entryAddress index + offset)) 31 = 0 ↔
      image.AgreesWith fname index := by
  rw [strncmp_eq_zero_iff ended, AgreesWith, entryName, List.take_takeWhile, ← List.map_take, List.take_range]
  rfl

/-- The search of the code: the first entry that agrees in 31 characters. -/
theorem readDentryByName_eq (wellFormed : image.NamesWellFormed) (ended : 0 ∉ fname) :
    image.mount.readDentryByName (some fname) =
      if 32 < fname.length % 256 then none
      else ((List.range image.entries).find? fun index => image.AgreesWith fname index).map image.entryAt := by
  have count : (signed32 image.entries).toNat = image.entries := by
    have few := wellFormed.count
    rw [signed32_of_small (by omega), Int.toNat_natCast]
  have entries : image.mount.numOfEntries = image.entries := rfl
  simp only [FileSystem.readDentryByName, entries, count, image.strncmp_eq_zero_iff_agreesWith ended]
  rfl

/-- The name of an entry is part of its 64 bytes. -/
theorem entryName_of_entryAt {first second : Nat} (same : image.entryAt first = image.entryAt second) :
    image.entryName first = image.entryName second := by
  have name (index : Nat) : image.entryName index = (image.entryAt index).fileName.takeWhile (· ≠ 0) := rfl
  rw [name, name, same]

/-- No entry has a name that is too long for it. -/
theorem lookup_of_long (long : 32 < fname.length) (dentry : Dentry) : image.lookup fname dentry = (-1, some dentry) := by
  have absent : (List.range image.entries).find? (fun index => image.entryName index = fname) = none := by
    rw [List.find?_range_eq_none]
    intro index _
    have short := image.length_entryName_le index
    rw [Bool.not_eq_true', decide_eq_false_iff_not]
    rintro rfl
    omega
  rw [lookup, absent]

/-- A search that is not cut off by the length counter is exact when each entry that agrees is
preceded by an entry of the full name. -/
theorem search_exact_iff (image : Image) (fname : List UInt8) :
    (∀ dentry, (match ((List.range image.entries).find? fun index => image.AgreesWith fname index).map
        image.entryAt with
      | some found => (0, some found)
      | none => (-1, some dentry)) = image.lookup fname dentry) ↔
      ∀ index < image.entries, image.AgreesWith fname index →
        ∃ earlier ≤ index, image.entryName earlier = fname := by
  constructor
  · intro exactly index inside agrees
    have dentry : Dentry := image.entryAt index
    have result := exactly dentry
    unfold lookup at result
    cases found : (List.range image.entries).find? fun index => image.AgreesWith fname index with
    | none =>
        rw [List.find?_range_eq_none] at found
        simpa [agrees] using found index inside
    | some first =>
        rw [found, Option.map_some] at result
        cases named : (List.range image.entries).find? fun index => image.entryName index = fname with
        | none =>
            rw [named] at result
            cases (Prod.mk.inj result).1
        | some owner =>
            rw [named] at result
            have same := entryName_of_entryAt (Option.some.inj (Prod.mk.inj result).2)
            rw [List.find?_range_eq_some] at found named
            refine ⟨first, ?_, same.trans (by simpa using named.1)⟩
            by_contra later
            simpa [agrees] using found.2.2 index (by omega)
  · intro preceded dentry
    have exactly (index : Nat) (named : decide (image.entryName index = fname) = true) :
        decide (image.AgreesWith fname index) = true := by
      rw [decide_eq_true_eq] at named ⊢
      rw [AgreesWith, named]
    have same := find?_range_eq exactly (by simpa using preceded)
    rw [same, lookup]
    cases (List.range image.entries).find? fun index => image.entryName index = fname <;> rfl

/-- The search for a name is exact when the length counter excludes the name, or when each entry that
agrees with it in 31 characters is preceded by an entry of exactly this name. -/
theorem lookup_exact_iff (wellFormed : image.NamesWellFormed) (ended : 0 ∉ fname) :
    (∀ dentry, image.mount.readDentryByNameInto (some fname) (some dentry) = image.lookup fname dentry) ↔
      32 < fname.length % 256 ∨ ∀ index < image.entries, image.AgreesWith fname index →
        ∃ earlier ≤ index, image.entryName earlier = fname := by
  have call (dentry : Dentry) : image.mount.readDentryByNameInto (some fname) (some dentry) =
      match image.mount.readDentryByName (some fname) with
      | some found => (0, some found)
      | none => (-1, some dentry) := by
    unfold FileSystem.readDentryByNameInto
    cases image.mount.readDentryByName (some fname) <;> rfl
  have searched := readDentryByName_eq wellFormed ended
  by_cases counted : 32 < fname.length % 256
  · have long : 32 < fname.length := Nat.lt_of_lt_of_le counted (Nat.mod_le _ _)
    rw [if_pos counted] at searched
    refine iff_of_true (fun dentry => ?_) (Or.inl counted)
    rw [call, searched, lookup_of_long long]
  · rw [if_neg counted] at searched
    simp only [call, searched, counted, false_or]
    exact image.search_exact_iff fname

end Image

section Sample

/-- The only entry of this image has a name of 32 characters. -/
def longNameImage : Image where
  memory := Memory.storeBytes (Memory.storeBytes (fun _ => 0) 0x420000 (sampleWord 1))
    0x420040 (List.replicate 32 97 ++ sampleWord 2)
  start := 0x420000

theorem longNameImage_name : longNameImage.entries = 1 ∧ longNameImage.entryName 0 = List.replicate 32 97 := by
  decide +kernel

theorem longNameImage_namesWellFormed : longNameImage.NamesWellFormed := by
  obtain ⟨entries, name⟩ := longNameImage_name
  constructor
  · rw [entries]
    decide
  · intro index inside
    obtain rfl : index = 0 := by omega
    rw [name]
    exact List.cons_ne_nil _ _
  · intro index inside offset small
    obtain rfl : index = 0 := by omega
    rw [name, List.length_replicate]
    omega

/-- The full name of 32 characters is found. -/
theorem lookup_exact_iff_sample :
    longNameImage.mount.readDentryByNameInto (some (List.replicate 32 97)) (some ⟨[], 0, 0, []⟩) =
      longNameImage.lookup (List.replicate 32 97) ⟨[], 0, 0, []⟩ := by
  apply (Image.lookup_exact_iff longNameImage_namesWellFormed (by decide)).mpr
  exact Or.inr fun index _ _ => ⟨0, Nat.zero_le _, longNameImage_name.2⟩

/-- Its first 31 characters, which are no name of the image, are found as well. -/
theorem lookup_prefix : longNameImage.NamesWellFormed ∧ 0 ∉ List.replicate 31 (97 : UInt8) ∧
    ∃ dentry, longNameImage.mount.readDentryByNameInto (some (List.replicate 31 97)) (some dentry) ≠
      longNameImage.lookup (List.replicate 31 97) dentry := by
  refine ⟨longNameImage_namesWellFormed, by decide, ⟨[], 0, 0, []⟩, ?_⟩
  decide +kernel

end Sample

end OrcaOS
