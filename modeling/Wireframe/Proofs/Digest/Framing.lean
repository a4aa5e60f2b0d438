import Mathlib.Data.List.Basic
import Wireframe.Digest.Fingerprint
import Wireframe.Proofs.Digest.Collision

/-!
Contract: what the bytes under the digest of a bundle tell of the bundle.

Owns:
- the zero bytes of a text, and numbers from their eight bytes;
- `CodeBundle.Delimited`, where every name ends at the zero byte after it;
- delimited bundles from their bytes, and bundles that share their bytes.

A content is framed by its length and may hold anything. The entry and the paths
last until the next zero byte, so that a zero inside one of them passes for its end.
-/

namespace Wireframe

open Digest

namespace Digest

/-! ### Bytes -/

theorem utf8_append (left right : String) : utf8 (left ++ right) = utf8 left ++ utf8 right := by
  simp [utf8]

/-- Only the zero character has a zero byte. -/
theorem zero_notMem_utf8EncodeChar {char : Char} (notZero : char ≠ '\x00') :
    0 ∉ String.utf8EncodeChar char := by
  have positive : 0 < char.val.toNat := by
    by_contra isZero
    exact notZero (Char.toNat_inj.mp (Nat.eq_zero_of_not_pos isZero))
  have bytes : ∀ byte ∈ String.utf8EncodeChar char, 0 < byte.toNat := by
    unfold String.utf8EncodeChar
    simp only
    repeat' split
    all_goals
      simp only [List.mem_cons, List.not_mem_nil, or_false, forall_eq_or_imp, forall_eq,
        UInt8.toNat_ofNat']
      omega
  exact fun zero => absurd (bytes 0 zero) (by decide)

/-- A text without the zero character. -/
def ZeroFree (text : String) : Prop :=
  '\x00' ∉ text.toList

instance (text : String) : Decidable (ZeroFree text) :=
  inferInstanceAs (Decidable ('\x00' ∉ text.toList))

theorem ZeroFree.zero_notMem {text : String} (free : ZeroFree text) : 0 ∉ utf8 text := by
  intro zero
  rcases List.mem_flatMap.mp zero with ⟨char, isChar, isByte⟩
  by_cases isZero : char = '\x00'
  · exact free (isZero ▸ isChar)
  · exact zero_notMem_utf8EncodeChar isZero isByte

theorem length_bigEndian64 (value : Nat) : (bigEndian64 value).length = 8 := by
  simp [bigEndian64]

/-- The first number that eight bytes cannot hold. -/
def countLimit : Nat := 18446744073709551616

/-- The byte at a shift and the bytes above it determine what is left after the shift. -/
theorem shifted_eq {left right : Nat} (shift : Nat)
    (above : left >>> (shift + 8) = right >>> (shift + 8))
    (here : (left >>> shift) % 256 = (right >>> shift) % 256) :
    left >>> shift = right >>> shift := by
  have isQuotient (value : Nat) : value >>> (shift + 8) = (value >>> shift) / 256 := by
    rw [Nat.shiftRight_add, Nat.shiftRight_eq_div_pow (value >>> shift)]
  rw [isQuotient, isQuotient] at above
  rw [← Nat.div_add_mod (left >>> shift) 256, above, here, Nat.div_add_mod]

/-- Eight bytes determine a number that they can hold. -/
theorem eq_of_bigEndian64_eq {left right : Nat} (leftFits : left < countLimit)
    (rightFits : right < countLimit) (same : bigEndian64 left = bigEndian64 right) :
    left = right := by
  have sameDigits := congrArg (List.map UInt8.toNat) same
  simp only [bigEndian64, List.map_cons, List.map_nil, UInt8.toNat_ofNat', Nat.reducePow,
    List.cons.injEq] at sameDigits
  rcases sameDigits with ⟨at56, at48, at40, at32, at24, at16, at8, at0, -⟩
  have beyond (value : Nat) (fits : value < countLimit) : value >>> 64 = 0 := by
    rw [Nat.shiftRight_eq_div_pow]
    exact Nat.div_eq_of_lt (Nat.lt_of_lt_of_eq fits (by decide))
  have above56 := (beyond left leftFits).trans (beyond right rightFits).symm
  have above48 := shifted_eq 48 (shifted_eq 56 above56 at56) at48
  have above32 := shifted_eq 32 (shifted_eq 40 above48 at40) at32
  have above16 := shifted_eq 16 (shifted_eq 24 above32 at24) at16
  exact shifted_eq 0 (shifted_eq 8 above16 at8) at0

/-! ### Names -/

/-- A zero byte comes next, or nothing at all. -/
def EndsName (bytes : List UInt8) : Prop :=
  ∀ byte ∈ bytes.head?, byte = 0

/-- Where a name ends is told by the bytes alone. -/
theorem name_unique {left right rest others : List UInt8} (leftFree : 0 ∉ left)
    (rightFree : 0 ∉ right) (leftEnds : EndsName rest) (rightEnds : EndsName others)
    (same : left ++ rest = right ++ others) : left = right ∧ rest = others := by
  induction left generalizing right with
  | nil =>
      cases right with
      | nil => exact ⟨rfl, same⟩
      | cons byte right =>
          have isZero : byte = 0 := leftEnds byte (by simp [show rest = _ from same])
          simp [isZero] at rightFree
  | cons byte left inductionHypothesis =>
      cases right with
      | nil =>
          have isZero : byte = 0 := rightEnds byte (by simp [show others = _ from same.symm])
          simp [isZero] at leftFree
      | cons other right =>
          simp only [List.mem_cons, not_or] at leftFree rightFree
          simp only [List.cons_append, List.cons.injEq] at same
          rcases inductionHypothesis leftFree.2 rightFree.2 same.2 with ⟨sameName, sameRest⟩
          exact ⟨by rw [same.1, sameName], sameRest⟩

theorem endsName_zero (bytes : List UInt8) : EndsName (0 :: bytes) := by
  simp [EndsName]

end Digest

namespace CodeBundle

/-! ### Bundles from their bytes -/

/-- No name holds a zero, and the lengths of the contents fit their eight bytes. -/
structure Delimited (bundle : CodeBundle) : Prop where
  entry : ZeroFree bundle.entry
  paths : ∀ file ∈ bundle.files, ZeroFree file.1
  lengths : ∀ file ∈ bundle.files, (utf8 file.2).length < countLimit

theorem endsName_files (files : List (String × String)) : EndsName (files.flatMap frameFile) := by
  cases files with
  | nil => simp [EndsName]
  | cons file files => exact endsName_zero _

theorem files_of_frames {left right : List (String × String)}
    (leftPaths : ∀ file ∈ left, ZeroFree file.1) (rightPaths : ∀ file ∈ right, ZeroFree file.1)
    (leftLengths : ∀ file ∈ left, (utf8 file.2).length < countLimit)
    (rightLengths : ∀ file ∈ right, (utf8 file.2).length < countLimit)
    (same : left.flatMap frameFile = right.flatMap frameFile) : left = right := by
  induction left generalizing right with
  | nil =>
      cases right with
      | nil => rfl
      | cons file right => simp [frameFile] at same
  | cons file left inductionHypothesis =>
      cases right with
      | nil => simp [frameFile] at same
      | cons other right =>
          rw [List.forall_mem_cons] at leftPaths rightPaths leftLengths rightLengths
          simp only [List.flatMap_cons, frameFile, List.cons_append, List.append_assoc,
            List.cons.injEq, true_and] at same
          rcases name_unique leftPaths.1.zero_notMem rightPaths.1.zero_notMem (endsName_zero _)
            (endsName_zero _) same with ⟨samePath, sameTail⟩
          rcases List.append_inj (List.cons.inj sameTail).2
            ((length_bigEndian64 _).trans (length_bigEndian64 _).symm) with ⟨sameCount, sameRest⟩
          have sameLength := eq_of_bigEndian64_eq leftLengths.1 rightLengths.1 sameCount
          rcases List.append_inj sameRest sameLength with ⟨sameContent, sameFiles⟩
          have sameFile : file = other :=
            Prod.ext (utf8_injective samePath) (utf8_injective sameContent)
          rw [sameFile, inductionHypothesis leftPaths.2 rightPaths.2 leftLengths.2 rightLengths.2
            sameFiles]

theorem zeroFree_name (framework : Framework) : ZeroFree framework.name := by
  cases framework <;> decide

theorem name_injective {left right : Framework} (same : left.name = right.name) :
    left = right := by
  cases left <;> cases right <;> first | rfl | exact absurd same (by decide)

/-- The bytes of a bundle tell its framework. They tell its entry and all its files,
paths and contents, where no name holds a zero. -/
theorem bundle_of_frame (left right : CodeBundle) :
    (left.frame = right.frame → left.framework = right.framework) ∧
      (left.Delimited → right.Delimited → (left.frame = right.frame ↔ left = right)) := by
  have split : left.frame = right.frame → left.framework = right.framework ∧
      utf8 left.entry ++ left.files.flatMap frameFile =
        utf8 right.entry ++ right.files.flatMap frameFile := by
    intro same
    rcases name_unique (zeroFree_name _).zero_notMem (zeroFree_name _).zero_notMem
      (endsName_zero _) (endsName_zero _) same with ⟨sameName, sameRest⟩
    exact ⟨name_injective (utf8_injective sameName), (List.cons.inj sameRest).2⟩
  refine ⟨fun same => (split same).1, fun leftDelimited rightDelimited => ⟨?_, congrArg frame⟩⟩
  intro same
  rcases split same with ⟨sameFramework, sameRest⟩
  rcases name_unique leftDelimited.entry.zero_notMem rightDelimited.entry.zero_notMem
    (endsName_files _) (endsName_files _) sameRest with ⟨sameEntry, sameFrames⟩
  have sameFiles := files_of_frames leftDelimited.paths rightDelimited.paths
    leftDelimited.lengths rightDelimited.lengths sameFrames
  rw [CodeBundle.mk.injEq]
  exact ⟨sameFiles, utf8_injective sameEntry, sameFramework⟩

/-- One file whose content spells another file's frame. -/
def nestedFile : CodeBundle :=
  ⟨[("p", "a\x00q\x00\x00\x00\x00\x00\x00\x00\x00\x01b")], "e", .next⟩

/-- The two files of which the first one's content could be taken for both. -/
def separateFiles : CodeBundle :=
  ⟨[("p", "a"), ("q", "b")], "e", .next⟩

theorem bundle_of_frame_nested :
    nestedFile.Delimited ∧ separateFiles.Delimited ∧ nestedFile.frame ≠ separateFiles.frame := by
  have nested : nestedFile.Delimited := ⟨by decide, by decide, by decide⟩
  have separate : separateFiles.Delimited := ⟨by decide, by decide, by decide⟩
  have different : nestedFile ≠ separateFiles := by decide
  exact ⟨nested, separate,
    fun same => different (((bundle_of_frame _ _).2 nested separate).mp same)⟩

/-! ### Bundles that share their bytes -/

/-- The text that has the bytes of a short file's frame. -/
def frameText (path content : String) : String :=
  "\x00" ++ path ++ "\x00\x00\x00\x00\x00\x00\x00\x00" ++
    String.singleton (Char.ofNat (utf8 content).length) ++ content

theorem bigEndian64_of_ascii : ∀ count < 128,
    bigEndian64 count = [0, 0, 0, 0, 0, 0, 0, UInt8.ofNat count] := by
  decide

theorem utf8_singleton_of_ascii : ∀ count < 128,
    utf8 (String.singleton (Char.ofNat count)) = [UInt8.ofNat count] := by
  decide

theorem utf8_frameText {content : String} (short : (utf8 content).length < 128)
    (path : String) : utf8 (frameText path content) = frameFile (path, content) := by
  have zeros : utf8 "\x00\x00\x00\x00\x00\x00\x00\x00" = [0, 0, 0, 0, 0, 0, 0, 0] := by decide
  have zero : utf8 "\x00" = [0] := by decide
  simp only [frameText, frameFile, utf8_append, utf8_singleton_of_ascii _ short,
    bigEndian64_of_ascii _ short, zeros, zero]
  simp

/-- An entry that goes on with the frame of the first file passes for an entry that
is followed by this file. -/
theorem frame_swallow {content : String} (short : (utf8 content).length < 128)
    (path : String) (files : List (String × String)) (entry : String) (framework : Framework) :
    frame ⟨(path, content) :: files, entry, framework⟩ =
      frame ⟨files, entry ++ frameText path content, framework⟩ := by
  simp only [frame, utf8_append, utf8_frameText short, List.flatMap_cons, List.append_assoc]

/-- A bundle with one file. -/
def oneFile : CodeBundle :=
  ⟨[("p", "s")], "e", .next⟩

/-- A bundle without files, whose entry goes on after a zero. -/
def longEntry : CodeBundle :=
  ⟨[], "e\x00p\x00\x00\x00\x00\x00\x00\x00\x00\x01s", .next⟩

/-- Both are bundles that data may spell, they differ, and their bytes do not. -/
theorem frame_eq_of_longEntry :
    codec.decode (codec.encode oneFile) = .ok oneFile ∧
      codec.decode (codec.encode longEntry) = .ok longEntry ∧
      oneFile ≠ longEntry ∧ oneFile.frame = longEntry.frame :=
  ⟨rfl, rfl, by decide, frame_swallow (by decide) "p" [] "e" .next⟩

-- A path that holds a zero passes for two files in the same way.
example : frame ⟨[("p", ""), ("q", "s")], "e", .next⟩ =
    frame ⟨[("p\x00\x00\x00\x00\x00\x00\x00\x00\x00\x00q", "s")], "e", .next⟩ := by
  decide

end CodeBundle
end Wireframe
