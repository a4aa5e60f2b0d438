import Wireframe.Proofs.Calendar.Count
import Wireframe.Proofs.Check.Unknown
import Wireframe.Proofs.Check.Gate
import Wireframe.Proofs.Codec.Exchange

/-!
Contract: the instant of a document, given as a text or as a count of milliseconds.

Owns:
- data that differs in the value of one member, held against the rules of an object;
- `Document.validate_eq_of_same_instant`, two ways to name one instant;
- `Document.counted_instant`, where a text and the count of its instant agree and where
  they cannot.

Does not own: which counts name a timestamp.
-/

namespace Wireframe

open Json Codec Calendar

variable {before after : List (String × Value)}

/-! ### Checks -/

namespace Check

variable {key : String} {left right : Value}

theorem lookup_exchange {name : String} (apart : name ≠ key) :
    (before ++ (key, left) :: after).lookup name =
      (before ++ (key, right) :: after).lookup name := by
  rw [List.lookup_append, List.lookup_append, Value.lookup_cons_eq_ite, if_neg apart,
    Value.lookup_cons_eq_ite, if_neg apart]

/-- A rule finds the same in an object if what it expects under the key finds the same
in both values. -/
theorem checkMember_exchange {member : String × Need × Rule} (path : String)
    (same : key ∈ namesOf member →
      check nodeShape left member.2.2 = check nodeShape right member.2.2) :
    checkMember (checkersOf nodeShape (before ++ (key, left) :: after)) path member =
      checkMember (checkersOf nodeShape (before ++ (key, right) :: after)) path member := by
  apply checkMember_congr
  intro name isName
  rw [lookup_checkersOf, lookup_checkersOf]
  by_cases apart : name = key
  · subst apart
    rw [List.lookup_append, List.lookup_append, Value.lookup_cons_eq_ite, if_pos rfl,
      Value.lookup_cons_eq_ite, if_pos rfl]
    cases before.lookup name with
    | none => simp [same isName]
    | some earlier => rfl
  · rw [lookup_exchange apart]

/-- Nothing in the rules of a document looks at `createdAt` but the rule for instants. -/
theorem documentViolations_exchange (leftPasses : ∀ path, checkInstant left path = [])
    (rightPasses : ∀ path, checkInstant right path = []) :
    documentViolations (.object (before ++ ("createdAt", left) :: after)) =
      documentViolations (.object (before ++ ("createdAt", right) :: after)) := by
  have instants : check nodeShape left .instant = check nodeShape right .instant := by
    funext path
    rw [check_instant, check_instant, leftPasses, rightPasses]
  have shapes : violations documentRule (.object (before ++ ("createdAt", left) :: after)) =
      violations documentRule (.object (before ++ ("createdAt", right) :: after)) := by
    apply List.flatMap_congr
    intro member isMember
    apply checkMember_exchange
    intro isCreatedAt
    have isInstant : member.2.2 = .instant := by
      revert isCreatedAt
      revert member
      simp [required, optional, namesOf]
    rw [isInstant, instants]
  have trees : uniqueIdViolations (.object (before ++ ("createdAt", left) :: after)) =
      uniqueIdViolations (.object (before ++ ("createdAt", right) :: after)) := by
    simp only [uniqueIdViolations, Value.member?]
    rw [lookup_exchange (by decide)]
  unfold documentViolations
  rw [shapes, trees]

end Check

namespace Document

open Check

/-! ### Instants in data -/

/-- The two forms in which an instant is given. -/
inductive Names : Value → Timestamp → Prop
  | text {text : String} {timestamp : Timestamp} :
      Timestamp.parse? text = some timestamp → Names (.string text) timestamp
  | count {number : Integer} {timestamp : Timestamp} :
      Timestamp.ofMillis? number.value = some timestamp → Names (.integer number) timestamp

/-- The data of a document that gives its instant, among other members. -/
def dated (before after : List (String × Value)) (instant : Value) : Value :=
  .object (before ++ ("createdAt", instant) :: after)

variable {value left right : Value} {timestamp : Timestamp} {policy : Policy}
  {document : Document}

theorem Names.decodes (names : Names value timestamp) : decodeTimestamp value = .ok timestamp := by
  cases names with
  | text read => simp only [decodeTimestamp, read]
  | count named =>
      have looked := le_greatestMillis_of_ofMillis? named
      simp only [decodeTimestamp, if_neg (Int.not_lt.mpr looked), timestampOfMillis, named]

theorem ofMillis?_of_decode {number : Integer}
    (decodes : decodeTimestamp (.integer number) = .ok timestamp) :
    Timestamp.ofMillis? number.value = some timestamp := by
  simp only [decodeTimestamp] at decodes
  split at decodes
  · cases decodes
  · unfold timestampOfMillis at decodes
    cases named : Timestamp.ofMillis? number.value with
    | none => simp [named] at decodes
    | some other => simpa [named] using decodes

theorem Names.passes (names : Names value timestamp) (path : String) :
    checkInstant value path = [] := by
  cases names with
  | text read => simp [checkInstant, read]
  | count named => simp [checkInstant, named]

theorem decode_exchange (same : decodeTimestamp left = decodeTimestamp right) :
    codec.decode (dated before after left) = codec.decode (dated before after right) := by
  apply decode_record_exchange
  simp [Fields.ReadSame, Field.answersTo, Field.needed, Field.optional, Field.defaulting,
    Codec.timestamp, same]

/-- Two ways to name one instant make no difference, to documents and to refusals. -/
theorem validate_eq_of_same_instant (leftNames : Names left timestamp)
    (rightNames : Names right timestamp) :
    validate policy (dated before after left) = validate policy (dated before after right) := by
  have sameReport :
      report policy (dated before after left) = report policy (dated before after right) := by
    unfold report dated
    rw [documentViolations_exchange leftNames.passes rightNames.passes]
  have sameDecoding :
      codec.decode (dated before after left) = codec.decode (dated before after right) :=
    decode_exchange (leftNames.decodes.trans rightNames.decodes.symm)
  unfold validate decoded
  rw [sameReport, sameDecoding]

/-- The instant of an accepted document is what its member decodes to. -/
theorem createdAt_of_validate
    (accepted : validate policy (dated before after value) = .ok document) :
    decodeTimestamp value = .ok document.createdAt := by
  have decodes : codec.decode (.object (before ++ ("createdAt", value) :: after)) =
      .ok document := by
    unfold validate dated at accepted
    split at accepted
    · exact decoded_eq_ok_iff.mp accepted
    · cases accepted
  rcases exists_of_map_eq_ok decodes with ⟨values, found, rfl⟩
  rcases values with ⟨id, version, createdAt, others⟩
  simp only [decodeFields, Outcome.toExcept_eq_ok, Fields.find, Outcome.pair_eq_found] at found
  rcases found with ⟨-, -, foundInstant, -⟩
  rcases Field.answers_of_find_eq_found foundInstant with ⟨none, -⟩ | ⟨given, only, decodesGiven⟩
  · simp [Field.answersTo, Field.defaulting] at none
  · have isValue : value = given := by
      simp only [List.filter_append, List.filter_cons, Field.answersTo, Field.defaulting,
        BEq.rfl, Bool.true_or, if_true, List.map_append, List.map_cons,
        List.append_eq_singleton_iff, List.cons_ne_nil, and_false, or_false,
        List.cons.injEq] at only
      exact only.2.1
    rw [isValue]
    exact decodesGiven

theorem Names.createdAt_eq (names : Names value timestamp)
    (accepted : validate policy (dated before after value) = .ok document) :
    document.createdAt = timestamp := by
  have decodes := createdAt_of_validate accepted
  rw [names.decodes] at decodes
  exact (Except.ok.inj decodes).symm

/-- The count of a timestamp is one that data can hold. -/
theorem exists_count (timestamp : Timestamp) :
    ∃ number : Integer, number.value = timestamp.millis := by
  have second_lt := timestamp.second_lt
  have milli_lt := timestamp.milli_lt
  unfold secondLimit secondsPerDay at second_lt
  refine ⟨⟨timestamp.millis, ?_, ?_⟩, rfl⟩
  · unfold leastInteger Timestamp.millis secondsBefore1970 secondsPerDay
    omega
  · unfold integerLimit Timestamp.millis secondsBefore1970 secondsPerDay
    omega

/-- The count of a timestamp that was read names it again exactly where it is no leap
second, and then a document may be given with the text or with the count. The count of a
leap second names the instant a second later, or none when year 9999 is over, and no
document is given by both. -/
theorem counted_instant {text : String} (read : Timestamp.parse? text = some timestamp) :
    (Timestamp.ofMillis? timestamp.millis = some timestamp ↔ ¬ timestamp.IsLeap) ∧
      (timestamp.IsLeap →
        (Timestamp.ofMillis? timestamp.millis).map (fun named => (named.second, named.milli)) =
          if timestamp.second + 1 < secondLimit then
            some (timestamp.second + 1, timestamp.milli - 1000)
          else none) ∧
      ∃ number : Integer, number.value = timestamp.millis ∧ ∀ policy before after,
        (¬ timestamp.IsLeap →
          validate policy (dated before after (.string text)) =
            validate policy (dated before after (.integer number))) ∧
        (timestamp.IsLeap → ∀ document,
          validate policy (dated before after (.string text)) = .ok document →
          validate policy (dated before after (.integer number)) ≠ .ok document) := by
  have same : Timestamp.ofMillis? timestamp.millis = some timestamp ↔ ¬ timestamp.IsLeap := by
    rw [Timestamp.ofMillis?_eq_some_iff]
    exact and_iff_left rfl
  rcases exists_count timestamp with ⟨number, counted⟩
  refine ⟨same, Timestamp.ofMillis?_millis_of_isLeap, number, counted, ?_⟩
  intro policy before after
  constructor
  · intro ordinary
    have named : Timestamp.ofMillis? number.value = some timestamp := by
      rw [counted]
      exact same.mpr ordinary
    exact validate_eq_of_same_instant (.text read) (.count named)
  · intro leap document written given
    have named := ofMillis?_of_decode (createdAt_of_validate given)
    rw [(Names.text read).createdAt_eq written, counted] at named
    exact same.mp named leap

/-- An id and a page, behind the instant of their document. -/
def pageMembers : List (String × Value) :=
  [("id", .string "d"),
    ("layoutTree", .object [("id", .string "p"), ("type", .string "page")])]

/-- They are accepted with any instant. -/
theorem validate_pageMembers (policy : Policy) (names : Names value timestamp) :
    ∃ document, validate policy (dated [] pageMembers value) = .ok document ∧
      document.createdAt = timestamp := by
  have ordered : (dated [] pageMembers value).Ordered := by
    have scalar : value.Ordered := by cases names <;> trivial
    simp only [dated, pageMembers, List.nil_append, Value.ascending_iff_keys, List.map,
      Value.Ordered, Value.OrderedMembers, scalar]
    decide
  have epoch : Names (.integer ⟨0, by decide, by decide⟩) .epoch := .count (by decide)
  have clean : documentViolations (dated [] pageMembers value) = [] := by
    unfold dated
    rw [documentViolations_exchange names.passes epoch.passes]
    decide
  have valid : (report policy (dated [] pageMembers value)).valid = true := by
    rw [valid_iff, clean]
    rfl
  rcases (validate_eq_ok_iff ordered).mpr valid with ⟨document, accepted⟩
  exact ⟨document, accepted, names.createdAt_eq accepted⟩

theorem counted_instant_zoned :
    ∃ instant, Timestamp.parse? "2024-03-01T09:30:00.1239+01:00" = some instant ∧
      Timestamp.ofMillis? instant.millis = some instant ∧
      ∃ number : Integer, number.value = 1709281800123 ∧
        validate .strict (dated [] pageMembers (.string "2024-03-01T09:30:00.1239+01:00")) =
          validate .strict (dated [] pageMembers (.integer number)) ∧
        ∃ document, validate .strict (dated [] pageMembers (.integer number)) = .ok document ∧
          document.createdAt = instant := by
  have read : Timestamp.parse? "2024-03-01T09:30:00.1239+01:00" =
      some ⟨63876501000, 123, by decide, by decide, by decide⟩ := by decide +kernel
  rcases counted_instant read with ⟨again, -, number, counted, agree⟩
  have same := (agree .strict [] pageMembers).1 (by decide)
  rcases validate_pageMembers .strict (.text read) with ⟨document, accepted, isInstant⟩
  rw [same] at accepted
  exact ⟨_, read, again.mpr (by decide), number, counted, same, document, accepted, isInstant⟩

/-- The leap second at the end of 2016 is accepted as a text, and its count is the count
of the instant after it. -/
theorem written_ne_counted_leap :
    ∃ instant next written counted, Timestamp.parse? "2016-12-31T23:59:60Z" = some instant ∧
      instant.millis = 1483228800000 ∧ Timestamp.ofMillis? instant.millis = some next ∧
      Timestamp.ofMillis? instant.millis ≠ some instant ∧
      validate .lenient (dated [] pageMembers (.string "2016-12-31T23:59:60Z")) = .ok written ∧
      validate .lenient (dated [] pageMembers (.integer ⟨1483228800000, by decide, by decide⟩)) =
        .ok counted ∧
      written.createdAt = instant ∧ counted.createdAt = next ∧ written ≠ counted := by
  have read : Timestamp.parse? "2016-12-31T23:59:60Z" =
      some ⟨63650447999, 1000, by decide, by decide, by decide⟩ := by decide +kernel
  have named : Timestamp.ofMillis? 1483228800000 =
      some ⟨63650448000, 0, by decide, by decide, by decide⟩ := by decide +kernel
  rcases validate_pageMembers .lenient (.text read) with ⟨written, writes, isLeap⟩
  have names : Names (.integer ⟨1483228800000, by decide, by decide⟩) _ := .count named
  rcases validate_pageMembers .lenient names with ⟨counted, counts, isNext⟩
  refine ⟨_, _, written, counted, read, by decide, named, by decide, writes, counts, isLeap,
    isNext, ?_⟩
  rintro rfl
  rw [isLeap] at isNext
  exact absurd isNext (by decide)

end Document

end Wireframe
