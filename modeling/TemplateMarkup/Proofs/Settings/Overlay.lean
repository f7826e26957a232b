import Mathlib.Algebra.Group.Nat.Defs
import TemplateMarkup.Proofs.Except
import TemplateMarkup.Settings.Reader

/-! Settings overlaid by the members of a JSON object: which members state a field, and which of
them is the first that cannot. -/
namespace TemplateMarkup

/-- A value of a field's type: a string, a whole number below `2^64`, or for the last two fields a
string or null. -/
def Field.Fits : Field → Json → Prop
  | .defaultTag, value => ∃ s, value = .string s
  | .tabSize, value => ∃ digits, value = .number ⟨false, digits, [], []⟩ ∧ digitsValue digits < 2 ^ 64
  | .encoding, value | .fileName, value => value = .null ∨ ∃ s, value = .string s

/-- A number that overflows when it is read. -/
def Json.isHuge : Json → Bool
  | .number n => n.isHuge
  | _ => false

namespace Settings

variable {settings result : Settings} {field other : Field} {name : String} {value : Json}
  {members before after : List (String × Json)} {seen : List Field} {category : Category}

/-- A string, or null if there is none. -/
def textOrNull : Option String → Json
  | none => .null
  | some s => .string s

/-- What a field is when a value is stated for it. -/
def Agrees (settings : Settings) : Field → Json → Prop
  | .defaultTag, value => value = .string settings.defaultTag
  | .tabSize, value =>
    ∃ digits, value = .number ⟨false, digits, [], []⟩ ∧ digitsValue digits = settings.tabSize
  | .encoding, value => value = textOrNull settings.encoding
  | .fileName, value => value = textOrNull settings.fileName

/-- What a field is when nothing is stated for it. -/
def Default (settings : Settings) : Field → Prop
  | .defaultTag => settings.defaultTag = "div"
  | .tabSize => settings.tabSize = 4
  | .encoding => settings.encoding = none
  | .fileName => settings.fileName = none

/-- The defaults overlaid by what members state. -/
structure Overlays (settings : Settings) (members : List (String × Json)) : Prop where
  stated : ∀ field value, (field.name, value) ∈ members → settings.Agrees field value
  unstated : ∀ field, field.name ∉ members.map Prod.fst → settings.Default field

/-- Members that state no field twice, and each with a value of its type. -/
structure Admits (members : List (String × Json)) : Prop where
  once : ∀ field : Field, (members.map Prod.fst).count field.name ≤ 1
  typed : ∀ (field : Field) value, (field.name, value) ∈ members → field.Fits value

/-- What one more member states on top of some settings. A field may be stated once, and was before
if it is one of those seen. -/
def overlayMember (settings : Settings) (seen : List Field) (name : String) (value : Json) :
    Except Category (Settings × List Field) :=
  match Field.ofName? name with
  | none => .ok (settings, seen)
  | some field =>
    if field ∈ seen then .error .mistyped
    else if value.isHuge then .error .malformed
    else
      match settings.set? field value with
      | none => .error .mistyped
      | some settings => .ok (settings, field :: seen)

/-- What members state on top of some settings. -/
def overlay (settings : Settings) (seen : List Field) :
    List (String × Json) → Except Category Settings
  | [] => .ok settings
  | (name, value) :: members =>
    match overlayMember settings seen name value with
    | .error category => .error category
    | .ok (settings, seen) => overlay settings seen members

/-! Fields and their values. -/

theorem ofName?_eq_some : Field.ofName? name = some field ↔ name = field.name := by
  constructor
  · intro found
    have matched := List.find?_some found
    exact (eq_of_beq matched).symm
  · rintro rfl
    cases field <;> decide

theorem name_injective : Function.Injective Field.name := by
  intro field other same
  cases field <;> cases other <;> first | rfl | exact absurd same (by decide)

theorem natural?_eq_some {n : Numeral} {size : Nat} :
    n.natural? = some size ↔
      ∃ digits, n = ⟨false, digits, [], []⟩ ∧ digitsValue digits = size ∧ size < 2 ^ 64 := by
  obtain ⟨negative, whole, fraction, exponent⟩ := n
  have bound : UInt64.size = 2 ^ 64 := rfl
  simp only [Numeral.natural?, bound, Option.ite_none_right_eq_some, Bool.and_eq_true,
    decide_eq_true_eq, Option.some.injEq, List.isEmpty_iff, Bool.not_eq_true', Numeral.mk.injEq]
  constructor
  · rintro ⟨⟨⟨⟨rfl, rfl⟩, rfl⟩, small⟩, rfl⟩
    exact ⟨whole, ⟨rfl, rfl, rfl, rfl⟩, rfl, small⟩
  · rintro ⟨digits, ⟨rfl, rfl, rfl, rfl⟩, rfl, small⟩
    exact ⟨⟨⟨⟨rfl, rfl⟩, rfl⟩, small⟩, rfl⟩

theorem set?_stated (set : settings.set? field value = some result) :
    field.Fits value ∧ result.Agrees field value := by
  unfold set? at set
  split at set
  · cases set
    exact ⟨⟨_, rfl⟩, rfl⟩
  · obtain ⟨size, natural, rfl⟩ := Option.map_eq_some_iff.1 set
    obtain ⟨digits, rfl, same, small⟩ := natural?_eq_some.1 natural
    exact ⟨⟨digits, rfl, same ▸ small⟩, ⟨digits, rfl, same⟩⟩
  · cases set
    exact ⟨.inl rfl, rfl⟩
  · cases set
    exact ⟨.inr ⟨_, rfl⟩, rfl⟩
  · cases set
    exact ⟨.inl rfl, rfl⟩
  · cases set
    exact ⟨.inr ⟨_, rfl⟩, rfl⟩
  · cases set

/-- The other fields stay as they are. -/
theorem set?_other (set : settings.set? field value = some result) (different : other ≠ field) :
    (settings.Default other → result.Default other) ∧
      ∀ value, settings.Agrees other value → result.Agrees other value := by
  unfold set? at set
  split at set
  case h_2 =>
    obtain ⟨size, -, rfl⟩ := Option.map_eq_some_iff.1 set
    cases other <;> first | exact absurd rfl different | exact ⟨id, fun _ => id⟩
  all_goals cases set
  all_goals cases other <;> first | exact absurd rfl different | exact ⟨id, fun _ => id⟩

theorem exists_set? (fits : field.Fits value) (settings : Settings) :
    ∃ result, settings.set? field value = some result := by
  cases field with
  | defaultTag =>
    obtain ⟨s, rfl⟩ := fits
    exact ⟨_, rfl⟩
  | tabSize =>
    obtain ⟨digits, rfl, small⟩ := fits
    have natural := natural?_eq_some.2 ⟨digits, rfl, rfl, small⟩
    exact ⟨_, by rw [set?, natural]; rfl⟩
  | encoding | fileName =>
    obtain rfl | ⟨s, rfl⟩ := fits <;> exact ⟨_, rfl⟩

theorem Overlays.unique {other : Settings} (h : settings.Overlays members)
    (h' : other.Overlays members) : settings = other := by
  have same : ∀ field,
      (∃ value, settings.Agrees field value ∧ other.Agrees field value) ∨
        settings.Default field ∧ other.Default field := by
    intro field
    by_cases stated : field.name ∈ members.map Prod.fst
    · obtain ⟨⟨name, value⟩, mem, named⟩ := List.mem_map.1 stated
      simp only at named
      subst named
      exact .inl ⟨value, h.stated field value mem, h'.stated field value mem⟩
    · exact .inr ⟨h.unstated field stated, h'.unstated field stated⟩
  have texts : Function.Injective textOrNull := by
    rintro (_ | s) (_ | t) same <;> cases same <;> rfl
  obtain ⟨defaultTag, tabSize, encoding, fileName⟩ := settings
  obtain ⟨defaultTag', tabSize', encoding', fileName'⟩ := other
  simp only [Settings.mk.injEq]
  refine ⟨?_, ?_, ?_, ?_⟩
  · obtain ⟨value, rfl, agreed⟩ | ⟨missing, missing'⟩ := same .defaultTag
    · exact Json.string.inj agreed
    · exact missing.trans missing'.symm
  · obtain ⟨value, ⟨digits, rfl, rfl⟩, digits', agreed, rfl⟩ | ⟨missing, missing'⟩ := same .tabSize
    · cases agreed
      rfl
    · exact missing.trans missing'.symm
  · obtain ⟨value, rfl, agreed⟩ | ⟨missing, missing'⟩ := same .encoding
    · exact texts agreed
    · exact missing.trans missing'.symm
  · obtain ⟨value, rfl, agreed⟩ | ⟨missing, missing'⟩ := same .fileName
    · exact texts agreed
    · exact missing.trans missing'.symm

theorem Overlays.perm (h : settings.Overlays before) (same : before.Perm after) :
    settings.Overlays after where
  stated field value mem := h.stated field value (same.mem_iff.2 mem)
  unstated field missing := h.unstated field fun mem => missing ((same.map _).mem_iff.1 mem)

theorem Admits.perm (h : Admits before) (same : before.Perm after) : Admits after where
  once field := (same.map Prod.fst).count_eq field.name ▸ h.once field
  typed field value mem := h.typed field value (same.mem_iff.2 mem)

/-! Numbers that a field can hold do not overflow. -/

theorem le_foldl_digits (digits : List Char) (n : Nat) :
    n ≤ digits.foldl (fun n d => n * 10 + (d.toNat - '0'.toNat)) n := by
  induction digits generalizing n with
  | nil => exact Nat.le_refl n
  | cons d digits ih =>
    have more : n ≤ n * 10 + (d.toNat - '0'.toNat) := by omega
    exact Nat.le_trans more (ih _)

theorem fitDigits_of_lt (digits : List Char) (n : Nat)
    (small : digits.foldl (fun n d => n * 10 + (d.toNat - '0'.toNat)) n < UInt64.size) :
    fitDigits n digits = (digits.foldl (fun n d => n * 10 + (d.toNat - '0'.toNat)) n, []) := by
  induction digits generalizing n with
  | nil => rfl
  | cons d digits ih =>
    rw [List.foldl_cons] at small ⊢
    rw [fitDigits, if_pos (Nat.lt_of_le_of_lt (le_foldl_digits digits _) small), ih _ small]

theorem roundBinary_le {n : Nat} (positive : n ≠ 0) : roundBinary n ≤ 2 * n := by
  have unit : Nat.pow 2 (n.log2 - 52) ≤ n :=
    Nat.le_trans (Nat.pow_le_pow_right (by decide) (Nat.sub_le _ _)) (Nat.log2_self_le positive)
  have low := Nat.div_mul_le_self n (Nat.pow 2 (n.log2 - 52))
  simp only [roundBinary]
  split <;> omega

/-- The powers of two that bound the doubles leave room for what is rounded from 64 bits. -/
theorem le_pow_sub_pow (low high : Nat) (far : 66 < high) (below : low < high) :
    2 ^ 66 ≤ Nat.pow 2 high - Nat.pow 2 low := by
  obtain ⟨half, rfl⟩ := Nat.exists_eq_add_one.2 (Nat.zero_lt_of_lt far)
  have half_le : Nat.pow 2 low ≤ Nat.pow 2 half := Nat.pow_le_pow_right (by decide) (by omega)
  have small : 2 ^ 66 ≤ Nat.pow 2 half := Nat.pow_le_pow_right (by decide) (by omega)
  have double : Nat.pow 2 (half + 1) = Nat.pow 2 half * 2 := rfl
  omega

theorem isHuge_natural {digits : List Char} (small : digitsValue digits < 2 ^ 64) :
    Numeral.isHuge ⟨false, digits, [], []⟩ = false := by
  have fits : fitDigits 0 digits = (digitsValue digits, []) := fitDigits_of_lt digits 0 small
  have rounded :
      roundBinary (digitsValue digits) * roundBinary (Nat.pow 10 (Int.toNat 0)) < 2 ^ 66 := by
    have one : roundBinary (Nat.pow 10 (Int.toNat 0)) = 1 := by decide
    rw [one, Nat.mul_one]
    by_cases zero : digitsValue digits = 0
    · rw [zero]
      decide
    · have := roundBinary_le zero
      omega
  have unscaled : (([] : List Char).length - (([] : List Char).length - ([] : List Char).length) +
      Numeral.exponentValue ⟨false, digits, [], []⟩ : Int) = 0 := rfl
  -- The bound itself is too large to be computed with.
  have fine : ∀ bound, 2 ^ 66 ≤ bound → ¬ bound ≤
      roundBinary (digitsValue digits) * roundBinary (Nat.pow 10 (Int.toNat 0)) := by
    intro bound room
    omega
  rw [Bool.eq_false_iff]
  intro huge
  simp only [Numeral.isHuge, fits, fitDigits, unscaled, Bool.and_eq_true, Bool.or_eq_true,
    decide_eq_true_eq] at huge
  obtain ⟨-, far | big⟩ := huge
  · cases far
  · exact fine _ (le_pow_sub_pow _ _ (by decide) (by decide)) big

theorem not_isHuge_of_fits (fits : field.Fits value) : value.isHuge = false := by
  cases field with
  | defaultTag =>
    obtain ⟨s, rfl⟩ := fits
    rfl
  | tabSize =>
    obtain ⟨digits, rfl, small⟩ := fits
    exact isHuge_natural small
  | encoding | fileName =>
    obtain rfl | ⟨s, rfl⟩ := fits <;> rfl

/-! What members come to, one after the other. -/

/-- How far an overlay has come: what the members so far state, and which fields they are. -/
structure Reached (before : List (String × Json)) (settings : Settings) (seen : List Field) :
    Prop where
  admits : Admits before
  overlays : settings.Overlays before
  seen : ∀ field, field ∈ seen ↔ field.name ∈ before.map Prod.fst

theorem Reached.nil : Reached [] {} [] where
  admits := ⟨fun _ => by simp, nofun⟩
  overlays := ⟨nofun, fun field _ => by cases field <;> rfl⟩
  seen _ := by simp

/-- A member of another name states nothing. -/
theorem Reached.pass (h : Reached before settings seen) (unknown : ∀ field, name ≠ Field.name field)
    (value : Json) : Reached (before ++ [(name, value)]) settings seen := by
  have same : ∀ field value', (Field.name field, value') ∈ before ++ [(name, value)] →
      (field.name, value') ∈ before := by
    intro field value' mem
    rcases List.mem_append.1 mem with mem | mem
    · exact mem
    · cases List.mem_singleton.1 mem
      exact absurd rfl (unknown field)
  have names : ∀ field, Field.name field ∈ (before ++ [(name, value)]).map Prod.fst ↔
      field.name ∈ before.map Prod.fst := by
    intro field
    have other := (unknown field).symm
    simp [other]
  refine ⟨⟨fun field => ?_, fun field value' mem => h.admits.typed field value' (same _ _ mem)⟩,
    ⟨fun field value' mem => h.overlays.stated field value' (same _ _ mem), fun field missing => ?_⟩,
    fun field => ?_⟩
  · simpa [unknown field] using h.admits.once field
  · exact h.overlays.unstated field fun mem => missing ((names field).2 mem)
  · rw [h.seen, names]

/-- A member of a field's type states a field that was not stated yet. -/
theorem Reached.set (h : Reached before settings seen) (fresh : field ∉ seen)
    (set : settings.set? field value = some result) :
    Reached (before ++ [(field.name, value)]) result (field :: seen) := by
  obtain ⟨fits, agrees⟩ := set?_stated set
  have new : field.name ∉ before.map Prod.fst := fun mem => fresh ((h.seen field).2 mem)
  have stated : ∀ other value', (Field.name other, value') ∈ before ++ [(field.name, value)] →
      (other ≠ field ∧ (other.name, value') ∈ before) ∨ other = field ∧ value' = value := by
    intro other value' mem
    rcases List.mem_append.1 mem with old | added
    · refine .inl ⟨?_, old⟩
      rintro rfl
      exact new (List.mem_map_of_mem old)
    · obtain ⟨named, rfl⟩ := Prod.mk.inj (List.mem_singleton.1 added)
      exact .inr ⟨name_injective named, rfl⟩
  refine ⟨⟨fun other => ?_, fun other value' mem => ?_⟩,
    ⟨fun other value' mem => ?_, fun other missing => ?_⟩, fun other => ?_⟩
  · have old := h.admits.once other
    rw [List.map_append, List.count_append, List.map_singleton, List.count_singleton]
    split
    · next same =>
      have none_ : (before.map Prod.fst).count other.name = 0 := by
        rw [← eq_of_beq same]
        exact List.count_eq_zero_of_not_mem new
      omega
    · exact old
  · obtain ⟨-, mem⟩ | ⟨rfl, rfl⟩ := stated other value' mem
    · exact h.admits.typed other value' mem
    · exact fits
  · obtain ⟨different, mem⟩ | ⟨rfl, rfl⟩ := stated other value' mem
    · exact (set?_other set different).2 _ (h.overlays.stated other value' mem)
    · exact agrees
  · rw [List.map_append, List.mem_append, not_or] at missing
    have different : other ≠ field := by
      rintro rfl
      exact missing.2 List.mem_cons_self
    exact (set?_other set different).1 (h.overlays.unstated other missing.1)
  · rw [List.mem_cons, h.seen, List.map_append, List.mem_append, List.map_singleton,
      List.mem_singleton, name_injective.eq_iff, or_comm]

/-- The first member that cannot state its field, and what is wrong with it. A number that overflows
is refused before it is known to be of the wrong type, but not before its field comes twice. -/
def Problem (members : List (String × Json)) (category : Category) : Prop :=
  ∃ before field value after, members = before ++ (Field.name field, value) :: after ∧
    Admits before ∧ (field.name ∈ before.map Prod.fst ∨ ¬ field.Fits value) ∧
    category = if field.name ∉ before.map Prod.fst ∧ value.isHuge = true then .malformed
      else .mistyped

theorem Problem.not_admits (h : Problem members category) : ¬ Admits members := by
  obtain ⟨before, field, value, after, rfl, -, wrong, -⟩ := h
  intro admits
  obtain twice | misfit := wrong
  · have once := admits.once field
    have here := List.count_pos_iff.2 twice
    rw [List.map_append, List.count_append, List.map_cons, List.count_cons_self] at once
    omega
  · exact misfit (admits.typed field value (by simp))

/-- One more member states something or is the first problem. -/
theorem Reached.member (h : Reached before settings seen) (name : String) (value : Json)
    (after : List (String × Json)) :
    (∃ result seen', overlayMember settings seen name value = .ok (result, seen') ∧
      Reached (before ++ [(name, value)]) result seen') ∨
    ∃ category, overlayMember settings seen name value = .error category ∧
      Problem (before ++ (name, value) :: after) category := by
  unfold overlayMember
  split
  · next unknown =>
    refine .inl ⟨settings, seen, rfl, h.pass (fun field same => ?_) value⟩
    rw [ofName?_eq_some.2 same] at unknown
    cases unknown
  · next field known =>
    obtain rfl := ofName?_eq_some.1 known
    split
    · next old =>
      have twice := (h.seen field).1 old
      refine .inr ⟨_, rfl, before, field, value, after, rfl, h.admits, .inl twice, ?_⟩
      rw [if_neg fun fresh => fresh.1 twice]
    · next fresh =>
      have new : field.name ∉ before.map Prod.fst := fun mem => fresh ((h.seen field).2 mem)
      split
      · next huge =>
        refine .inr ⟨_, rfl, before, field, value, after, rfl, h.admits, .inr fun fits => ?_, ?_⟩
        · rw [not_isHuge_of_fits fits] at huge
          cases huge
        · rw [if_pos ⟨new, huge⟩]
      · next small =>
        split
        · next misfit =>
          refine .inr ⟨_, rfl, before, field, value, after, rfl, h.admits, .inr fun fits => ?_, ?_⟩
          · obtain ⟨result, set⟩ := exists_set? fits settings
            cases misfit.symm.trans set
          · rw [if_neg fun huge => small huge.2]
        · next result set => exact .inl ⟨result, field :: seen, rfl, h.set fresh set⟩

theorem Reached.overlay (h : Reached before settings seen) (members : List (String × Json)) :
    (∃ result seen', Settings.overlay settings seen members = .ok result ∧
      Reached (before ++ members) result seen') ∨
    ∃ category, Settings.overlay settings seen members = .error category ∧
      Problem (before ++ members) category := by
  induction members generalizing before settings seen with
  | nil => exact .inl ⟨settings, seen, rfl, by rwa [List.append_nil]⟩
  | cons member members ih =>
    obtain ⟨name, value⟩ := member
    rw [Settings.overlay]
    obtain ⟨result, seen', ok, next⟩ | ⟨category, error, problem⟩ := h.member name value members
    · rw [ok, List.append_cons]
      exact ih next
    · rw [error]
      exact .inr ⟨category, rfl, problem⟩

theorem overlay_of_admits (h : Admits members) :
    ∃ result, overlay {} [] members = .ok result ∧ result.Overlays members := by
  obtain ⟨result, seen, ok, reached⟩ | ⟨category, -, problem⟩ := Reached.nil.overlay members
  · exact ⟨result, ok, reached.overlays⟩
  · exact absurd h problem.not_admits

theorem overlay_of_not_admits (h : ¬ Admits members) :
    ∃ category, overlay {} [] members = .error category ∧ Problem members category := by
  obtain ⟨result, seen, -, reached⟩ | wrong := Reached.nil.overlay members
  · exact absurd reached.admits h
  · exact wrong

end Settings
end TemplateMarkup
