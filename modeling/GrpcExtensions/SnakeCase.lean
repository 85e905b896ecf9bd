import GrpcExtensions.ClientMacros

/-!
# Snake case and the way back

`into_snake_case` writes an upper-case letter as an underscore and the
lower-case letter, and leaves out the underscore in front of the first one.
A name without underscores can therefore be read back from its snake case.
-/

namespace GrpcExtensions
namespace SnakeCase

open ClientMacros (CharCase asciiCase intoSnakeCase snakeCaseFrom)

section Characters

theorem isAlphanum_bounds {c : Char} (hc : c.isAlphanum = true) :
    (48 ≤ c.toNat ∧ c.toNat ≤ 57) ∨ (65 ≤ c.toNat ∧ c.toNat ≤ 90) ∨
      97 ≤ c.toNat ∧ c.toNat ≤ 122 := by
  have hclasses : ((decide (c.val ≥ 65 ∧ c.val ≤ 90) ||
      (decide (c.val ≥ 97) && decide (c.val ≤ 122))) ||
      (decide (c.val ≥ 48) && decide (c.val ≤ 57))) = true := hc
  have hval : c.toNat = c.val.toNat := rfl
  simp only [Bool.or_eq_true, Bool.and_eq_true, decide_eq_true_eq, ge_iff_le,
    UInt32.le_iff_toNat_le, UInt32.reduceToNat] at hclasses
  omega

theorem ascii_of_isAlphanum {c : Char} (hc : c.isAlphanum = true) :
    c.toNat < 128 := by
  have hbounds := isAlphanum_bounds hc
  omega

theorem ne_underscore_of_isAlphanum
    {c : Char} (hc : c.isAlphanum = true) : c ≠ '_' := by
  intro heq
  rw [heq] at hc
  contradiction

/-- What lower case does to the ASCII characters. -/
theorem toLower_table :
    ∀ n < 128,
      ((Char.ofNat n).isUpper = true →
        (Char.ofNat n).toLower.isAlpha = true ∧
        (Char.ofNat n).toLower.toUpper = Char.ofNat n) ∧
      (Char.ofNat n).toLower.toNat < 128 ∧
      (Char.ofNat n).toLower.isUpper = false := by
  decide

variable {c : Char}

theorem isAlpha_toLower
    (hascii : c.toNat < 128) (hupper : c.isUpper = true) :
    c.toLower.isAlpha = true := by
  have htable := toLower_table c.toNat hascii
  rw [Char.ofNat_toNat] at htable
  exact (htable.1 hupper).1

theorem toLower_ne_underscore
    (hascii : c.toNat < 128) (hupper : c.isUpper = true) :
    c.toLower ≠ '_' := by
  intro heq
  have halpha := isAlpha_toLower hascii hupper
  rw [heq] at halpha
  contradiction

theorem toUpper_toLower
    (hascii : c.toNat < 128) (hupper : c.isUpper = true) :
    c.toLower.toUpper = c := by
  have htable := toLower_table c.toNat hascii
  rw [Char.ofNat_toNat] at htable
  exact (htable.1 hupper).2

theorem toLower_plain (hascii : c.toNat < 128) :
    c.toLower.toNat < 128 ∧ c.toLower.isUpper = false := by
  have htable := toLower_table c.toNat hascii
  rw [Char.ofNat_toNat] at htable
  exact htable.2

end Characters

section Names

/-- A name of ASCII letters and digits that starts with an upper-case
letter. -/
structure IsRpcName (name : String) : Prop where
  alphanum : ∀ c ∈ name.toList, c.isAlphanum = true
  upper : ∃ first rest, name.toList = first :: rest ∧ first.isUpper = true

def IsAscii (text : String) : Prop :=
  ∀ c ∈ text.toList, c.toNat < 128

def fromSnakeCaseFrom (upper : Bool) : List Char → List Char
  | [] => []
  | ch :: rest =>
      if ch = '_' then fromSnakeCaseFrom true rest
      else (if upper then ch.toUpper else ch) :: fromSnakeCaseFrom false rest

/-- The first letter and each letter after an underscore become upper case,
and the underscores go. -/
def fromSnakeCase (src : String) : String :=
  String.ofList (fromSnakeCaseFrom true src.toList)

variable (cases : CharCase)

/-- Behind the first character every underscore marks an upper-case letter. -/
theorem fromSnakeCaseFrom_snakeCaseFrom
    {index : ℕ} (hindex : index ≠ 0) {text : List Char}
    (htext : ∀ c ∈ text, c.isAlphanum = true) :
    fromSnakeCaseFrom false (snakeCaseFrom cases index text) = text := by
  induction text generalizing index with
  | nil => rfl
  | cons ch rest ih =>
      rw [List.forall_mem_cons] at htext
      have hascii := ascii_of_isAlphanum htext.1
      have htail := ih (Nat.succ_ne_zero index) htext.2
      unfold snakeCaseFrom
      rw [cases.isUppercase_ascii ch hascii, if_pos hindex]
      cases hupper : ch.isUpper with
      | true =>
          have hletter := toLower_ne_underscore hascii hupper
          rw [if_pos rfl, cases.toLowercase_ascii ch hascii]
          simp [fromSnakeCaseFrom, hletter, toUpper_toLower hascii hupper,
            htail]
      | false =>
          have hch := ne_underscore_of_isAlphanum htext.1
          simp [fromSnakeCaseFrom, hch, htail]

theorem fromSnakeCase_intoSnakeCase
    {name : String} (hname : IsRpcName name) :
    fromSnakeCase (intoSnakeCase cases name) = name := by
  rcases hname.upper with ⟨first, rest, htext, hupper⟩
  have halphanum := hname.alphanum
  rw [htext, List.forall_mem_cons] at halphanum
  have hascii := ascii_of_isAlphanum halphanum.1
  have hletter := toLower_ne_underscore hascii hupper
  have htail := fromSnakeCaseFrom_snakeCaseFrom cases Nat.one_ne_zero
    halphanum.2
  have hsnake : snakeCaseFrom cases 0 (first :: rest) =
      first.toLower :: snakeCaseFrom cases 1 rest := by
    simp [snakeCaseFrom, cases.isUppercase_ascii first hascii, hupper,
      cases.toLowercase_ascii first hascii]
  apply String.toList_inj.mp
  rw [fromSnakeCase, intoSnakeCase, String.toList_ofList,
    String.toList_ofList, htext, hsnake, fromSnakeCaseFrom, if_neg hletter,
    if_pos rfl, toUpper_toLower hascii hupper, htail]

theorem intoSnakeCase_inj
    {name other : String} (hname : IsRpcName name) (hother : IsRpcName other)
    (heq : intoSnakeCase cases name = intoSnakeCase cases other) :
    name = other := by
  calc
    name = fromSnakeCase (intoSnakeCase cases name) :=
      (fromSnakeCase_intoSnakeCase cases hname).symm
    _ = fromSnakeCase (intoSnakeCase cases other) := by rw [heq]
    _ = other := fromSnakeCase_intoSnakeCase cases hother

end Names

section Ascii

variable (cases : CharCase)

theorem plain_snakeCaseFrom
    (index : ℕ) {text : List Char} (htext : ∀ c ∈ text, c.toNat < 128) :
    ∀ c ∈ snakeCaseFrom cases index text,
      c.toNat < 128 ∧ c.isUpper = false := by
  induction text generalizing index with
  | nil => simp [snakeCaseFrom]
  | cons ch rest ih =>
      rw [List.forall_mem_cons] at htext
      have hascii := htext.1
      have htail := ih (index + 1) htext.2
      unfold snakeCaseFrom
      rw [cases.isUppercase_ascii ch hascii]
      cases hupper : ch.isUpper with
      | true =>
          rw [if_pos rfl, cases.toLowercase_ascii ch hascii,
            List.forall_mem_append, List.forall_mem_cons]
          refine ⟨?_, toLower_plain hascii, htail⟩
          split <;> simp
      | false => exact List.forall_mem_cons.mpr ⟨⟨hascii, hupper⟩, htail⟩

theorem snakeCaseFrom_of_plain
    (index : ℕ) {text : List Char}
    (htext : ∀ c ∈ text, c.toNat < 128 ∧ c.isUpper = false) :
    snakeCaseFrom cases index text = text := by
  induction text generalizing index with
  | nil => rfl
  | cons ch rest ih =>
      rw [List.forall_mem_cons] at htext
      rcases htext with ⟨⟨hascii, hlower⟩, hrest⟩
      unfold snakeCaseFrom
      rw [cases.isUppercase_ascii ch hascii, hlower,
        if_neg Bool.false_ne_true, ih (index + 1) hrest]

end Ascii

/-- Names are told apart by their snake case and read back from it, and
what is in snake case stays as it is. -/
theorem snake_case_keeps_names_apart (cases : CharCase) :
    (∀ name other, IsRpcName name → IsRpcName other →
      intoSnakeCase cases name = intoSnakeCase cases other → name = other) ∧
    (∀ name, IsRpcName name →
      fromSnakeCase (intoSnakeCase cases name) = name) ∧
    ∀ text, IsAscii text →
      (∀ c ∈ (intoSnakeCase cases text).toList,
        c.toNat < 128 ∧ c.isUpper = false) ∧
      intoSnakeCase cases (intoSnakeCase cases text) =
        intoSnakeCase cases text := by
  refine ⟨fun _ _ => intoSnakeCase_inj cases,
    fun _ => fromSnakeCase_intoSnakeCase cases, ?_⟩
  intro text htext
  have hplain : ∀ c ∈ (intoSnakeCase cases text).toList,
      c.toNat < 128 ∧ c.isUpper = false := by
    rw [intoSnakeCase, String.toList_ofList]
    exact plain_snakeCaseFrom cases 0 htext
  refine ⟨hplain, ?_⟩
  have hsame := snakeCaseFrom_of_plain cases 0 hplain
  apply String.toList_inj.mp
  rw [intoSnakeCase, String.toList_ofList]
  exact hsame

theorem snake_case_keeps_names_apart_hello_world :
    fromSnakeCase (intoSnakeCase asciiCase "HelloWorld") = "HelloWorld" := by
  have hall : ("HelloWorld".toList.all fun c => c.isAlphanum) = true := by
    decide
  have hname : IsRpcName "HelloWorld" :=
    ⟨List.all_eq_true.mp hall, _, _, rfl, rfl⟩
  exact (snake_case_keeps_names_apart asciiCase).2.1 _ hname

example : intoSnakeCase asciiCase "HelloWorld" = "hello_world" := by decide

end SnakeCase
end GrpcExtensions
