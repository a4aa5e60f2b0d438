import Wireframe.Bundle.Generate
import Wireframe.Proofs.Json.Compact

/-!
Contract: package manifests, and the names of packages.

Owns:
- `IsPackageName`, the names that packages are given, which are those that the naming of
  packages leaves alone;
- the manifest file as JSON text, and its members.

Does not own: what the package manager makes of the manifest.
-/

namespace Wireframe.Bundle

open Json

/-! ### Characters of names -/

/-- Lower-case letters, digits and hyphens. -/
def IsNameChar (char : Char) : Prop :=
  ('a' ≤ char ∧ char ≤ 'z') ∨ ('0' ≤ char ∧ char ≤ '9') ∨ char = '-'

theorem isAlphanum_iff {char : Char} : char.isAlphanum = true ↔
    ('A' ≤ char ∧ char ≤ 'Z') ∨ ('a' ≤ char ∧ char ≤ 'z') ∨ ('0' ≤ char ∧ char ≤ '9') := by
  have asTests : char.isAlphanum = (decide ('A' ≤ char ∧ char ≤ 'Z') ||
      (decide ('a' ≤ char) && decide (char ≤ 'z')) ||
      (decide ('0' ≤ char) && decide (char ≤ '9'))) := rfl
  simp only [asTests, Bool.or_eq_true, Bool.and_eq_true, decide_eq_true_eq, or_assoc]

theorem toLower_of_not_upper {char : Char} (notUpper : ¬ ('A' ≤ char ∧ char ≤ 'Z')) :
    char.toLower = char :=
  dif_neg notUpper

theorem toLower_of_upper {char : Char} (isUpper : 'A' ≤ char ∧ char ≤ 'Z') :
    'a' ≤ char.toLower ∧ char.toLower ≤ 'z' := by
  have isShifted : char.toLower.val = char.val + ('a'.val - 'A'.val) := by
    unfold Char.toLower
    exact congrArg Char.val (dif_pos isUpper)
  rw [Char.le_def, Char.le_def, isShifted]
  simp only [Char.le_def, UInt32.le_iff_toNat_le, UInt32.toNat_add, Char.reduceVal,
    UInt32.reduceSub, UInt32.reduceToNat] at isUpper ⊢
  omega

theorem isNameChar_nameChar (char : Char) : IsNameChar (nameChar char) := by
  unfold nameChar
  split
  · rename_i isAlphanum
    by_cases isUpper : 'A' ≤ char ∧ char ≤ 'Z'
    · exact .inl (toLower_of_upper isUpper)
    · rw [toLower_of_not_upper isUpper]
      rcases isAlphanum_iff.mp isAlphanum with upper | isLower | isDigit
      · exact absurd upper isUpper
      · exact .inl isLower
      · exact .inr (.inl isDigit)
  · exact .inr (.inr rfl)

theorem nameChar_of_not_upper {char : Char} (isAlphanum : char.isAlphanum = true)
    (notUpper : ¬ ('A' ≤ char ∧ char ≤ 'Z')) : nameChar char = char := by
  rw [nameChar, if_pos isAlphanum, toLower_of_not_upper notUpper]

theorem nameChar_of_isNameChar {char : Char} (spelled : IsNameChar char) :
    nameChar char = char := by
  rcases spelled with isLower | isDigit | rfl
  · apply nameChar_of_not_upper
    · exact isAlphanum_iff.mpr (.inr (.inl isLower))
    · exact fun isUpper => absurd (Char.le_trans isLower.1 isUpper.2) (by decide)
  · apply nameChar_of_not_upper
    · exact isAlphanum_iff.mpr (.inr (.inr isDigit))
    · exact fun isUpper => absurd (Char.le_trans isUpper.1 isDigit.2) (by decide)
  · rfl

/-! ### Hyphens at the ends -/

theorem head?_dropWhile_ne (chars : List Char) :
    (chars.dropWhile (· = '-')).head? ≠ some '-' := by
  intro starts
  have notHyphen := List.head?_dropWhile_not (· = '-') chars
  rw [starts] at notHyphen
  exact absurd notHyphen (by decide)

theorem dropWhile_of_head?_ne {chars : List Char} (starts : chars.head? ≠ some '-') :
    chars.dropWhile (· = '-') = chars := by
  cases chars with
  | nil => rfl
  | cons char chars =>
      apply List.dropWhile_cons_of_neg
      simpa using starts

theorem trimHyphens_starts (chars : List Char) :
    trimHyphens chars <+: chars.dropWhile (· = '-') := by
  rw [trimHyphens, ← List.reverse_suffix, List.reverse_reverse]
  exact List.dropWhile_suffix _

theorem head?_trimHyphens_ne (chars : List Char) : (trimHyphens chars).head? ≠ some '-' := by
  intro starts
  obtain ⟨rest, isWhole⟩ := trimHyphens_starts chars
  apply head?_dropWhile_ne chars
  rw [← isWhole, List.head?_append, starts]
  rfl

theorem getLast?_trimHyphens_ne (chars : List Char) :
    (trimHyphens chars).getLast? ≠ some '-' := by
  rw [trimHyphens, List.getLast?_reverse]
  exact head?_dropWhile_ne _

theorem trimHyphens_of_trimmed {chars : List Char} (starts : chars.head? ≠ some '-')
    (ends : chars.getLast? ≠ some '-') : trimHyphens chars = chars := by
  rw [← List.head?_reverse] at ends
  rw [trimHyphens, dropWhile_of_head?_ne starts, dropWhile_of_head?_ne ends, List.reverse_reverse]

/-! ### Names -/

/-- A name that a package may bear. -/
structure IsPackageName (name : String) : Prop where
  notEmpty : name ≠ ""
  spelled : ∀ char ∈ name.toList, IsNameChar char
  starts : name.toList.head? ≠ some '-'
  ends : name.toList.getLast? ≠ some '-'

/-- What an id leaves for a name: nothing where it has no letter or digit. -/
def slug (id : String) : List Char :=
  trimHyphens (id.toList.map nameChar)

theorem packageName_eq (id : String) :
    packageName id = if slug id = [] then fallbackName else String.ofList (slug id) := by
  rw [packageName, ← slug]
  cases slug id <;> rfl

theorem isNameChar_of_mem_map {chars : List Char} {char : Char}
    (isMember : char ∈ chars.map nameChar) : IsNameChar char := by
  obtain ⟨original, -, rfl⟩ := List.mem_map.mp isMember
  exact isNameChar_nameChar original

theorem isNameChar_of_mem_slug {id : String} {char : Char} (isMember : char ∈ slug id) :
    IsNameChar char := by
  have isWithin := (trimHyphens_starts _).mem isMember
  exact isNameChar_of_mem_map ((List.dropWhile_suffix _).mem isWithin)

theorem isPackageName_fallbackName : IsPackageName fallbackName where
  notEmpty := by decide
  spelled := by
    have same : fallbackName.toList.map nameChar = fallbackName.toList := by decide
    rw [← same]
    exact fun char => isNameChar_of_mem_map
  starts := by decide
  ends := by decide

theorem isPackageName_slug {id : String} (notNil : slug id ≠ []) :
    IsPackageName (String.ofList (slug id)) where
  notEmpty := by
    intro isEmpty
    have isNil := congrArg String.toList isEmpty
    rw [String.toList_ofList] at isNil
    exact notNil isNil
  spelled := by
    rw [String.toList_ofList]
    exact fun char => isNameChar_of_mem_slug
  starts := by
    rw [String.toList_ofList]
    exact head?_trimHyphens_ne _
  ends := by
    rw [String.toList_ofList]
    exact getLast?_trimHyphens_ne _

theorem isPackageName_packageName (id : String) : IsPackageName (packageName id) := by
  rw [packageName_eq]
  split
  · exact isPackageName_fallbackName
  · rename_i notNil
    exact isPackageName_slug notNil

theorem IsPackageName.slug_eq {name : String} (isName : IsPackageName name) :
    slug name = name.toList := by
  have same : name.toList.map nameChar = name.toList := by
    rw [List.map_congr_left fun char isMember =>
      nameChar_of_isNameChar (isName.spelled char isMember)]
    exact List.map_id _
  rw [slug, same, trimHyphens_of_trimmed isName.starts isName.ends]

/-- The naming of packages leaves names alone, and nothing else. -/
theorem packageName_eq_self_iff {name : String} :
    packageName name = name ↔ IsPackageName name := by
  constructor
  · intro same
    rw [← same]
    exact isPackageName_packageName name
  · intro isName
    have notNil : name.toList ≠ [] :=
      fun isNil => isName.notEmpty (String.toList_eq_nil_iff.mp isNil)
    rw [packageName_eq, isName.slug_eq, if_neg notNil, String.ofList_toList]

example : packageName "Demo Project_1" = "demo-project-1" := by decide

/-! ### The manifest as data -/

theorem depth_manifest (document : Document) (framework : Framework) :
    (manifest document framework).depth ≤ nestingLimit := by
  cases framework <;> exact (by decide : 2 ≤ nestingLimit)

theorem parse_manifestFile (document : Document) (framework : Framework) :
    parse (manifestFile document framework) = .ok (manifest document framework).sortKeys := by
  have fits := (Value.depth_sortKeys_le _).trans (depth_manifest document framework)
  rw [manifestFile, Value.pretty, parse_line (readsAs_pretty _ fits 0), Value.sortKeys_sortKeys]

theorem lookup_manifestFile (table : Markup.Table) (document : Document)
    (options : GenerateOptions) :
    (document.generateWith table options).files.lookup "package.json" =
      some (manifestFile document options.framework) := by
  obtain ⟨framework⟩ := options
  cases framework <;> rfl

/-- The members of a manifest, among those of its framework. -/
theorem exists_manifest (document : Document) (framework : Framework) :
    ∃ members, manifest document framework = .object members ∧ (members.map Prod.fst).Nodup ∧
      members.lookup "version" = some (.string document.version) ∧
      members.lookup "name" = some (.string (packageName document.id)) := by
  cases framework with
  | next =>
      have distinct : ["name", "private", "version", "scripts", "dependencies",
          "devDependencies"].Nodup := by decide
      exact ⟨_, rfl, distinct, rfl, rfl⟩
  | react =>
      have distinct : ["name", "private", "version", "type", "scripts", "dependencies",
          "devDependencies"].Nodup := by decide
      exact ⟨_, rfl, distinct, rfl, rfl⟩

/-- The manifest file is read as an object that names the package and its version. -/
theorem exists_parse_manifestFile (document : Document) (framework : Framework) :
    ∃ members, parse (manifestFile document framework) = .ok (.object members) ∧
      Value.member? "version" members = some (.string document.version) ∧
      Value.member? "name" members = some (.string (packageName document.id)) := by
  obtain ⟨members, isManifest, distinct, version, name⟩ := exists_manifest document framework
  obtain ⟨sorted, isSorted, -, lookups⟩ := Value.exists_sortKeys_object distinct
  refine ⟨sorted, ?_, ?_, ?_⟩
  · rw [parse_manifestFile, isManifest, isSorted]
  · rw [Value.member?, lookups, version]
    rfl
  · rw [Value.member?, lookups, name]
    rfl

/-- Whatever the document, the manifest of its bundle is JSON text of an object with the
version of the document and the name made from its id; and whatever the id, that name is one
a package may bear, and made into a name again it stays what it is. -/
theorem manifest_usable (table : Markup.Table) (document : Document)
    (options : GenerateOptions) (id : String) :
    (∃ text members,
        (document.generateWith table options).files.lookup "package.json" = some text ∧
          parse text = .ok (.object members) ∧
          Value.member? "version" members = some (.string document.version) ∧
          Value.member? "name" members = some (.string (packageName document.id))) ∧
      IsPackageName (packageName id) ∧ packageName (packageName id) = packageName id := by
  obtain ⟨members, parses, version, name⟩ :=
    exists_parse_manifestFile document options.framework
  have isName := isPackageName_packageName id
  exact ⟨⟨_, members, lookup_manifestFile table document options, parses, version, name⟩,
    isName, packageName_eq_self_iff.mpr isName⟩

end Wireframe.Bundle
