import VcalmStatus.Js.Text
import VcalmStatus.StatusLists.Bitstring
import Mathlib.Data.Nat.Bitwise

/-!
A bitstring library that keeps its bits in one number. Only the fresh list of the minimum length
has the encoding it has in the specification's examples; every other list is written as its length
and its number in decimal, where the library compresses. The module shows that what the service
relies on can be had, and gives the concrete runs something to run on.
-/

namespace VcalmStatus

open Js

structure PlainList where
  length : Nat
  bits : Nat
  deriving DecidableEq, Repr

namespace PlainList

/-- The all-zero 131,072-bit list from the BSL spec examples. -/
def emptyEncodedList : String :=
  "uH4sIAAAAAAAAA-3BMQEAAADCoPVPbQwfoAAAAAAAAAAAAAAAAAAAAIC3AYbSVKsAQAAA"

def fresh : PlainList := ⟨minimumListLength, 0⟩

def createList (length : Nat) : Except JsError PlainList :=
  if length ≤ maxSafeInteger then .ok ⟨length, 0⟩ else .error (.other "RangeError")

def getStatus (list : PlainList) (index : Nat) : Except JsError Bool :=
  if index < list.length then .ok (list.bits.testBit index) else .error (.other "Error")

def setStatus (list : PlainList) (index : Nat) (status : Bool) : Except JsError PlainList :=
  if index < list.length then
    .ok (if list.bits.testBit index = status then list
      else { list with bits := list.bits ^^^ 2 ^ index })
  else .error (.other "Error")

def encode (list : PlainList) : String :=
  if list = fresh then emptyEncodedList
  else String.ofList ('u' :: (toString list.length).toList ++ '.' :: (toString list.bits).toList)

def decodeList (encodedList : String) : Except JsError PlainList :=
  if encodedList = emptyEncodedList then .ok fresh
  else
    match encodedList.toList with
    | 'u' :: text =>
        match text.dropWhile Char.isDigit with
        | '.' :: bits => .ok ⟨ofDigits (String.ofList (text.takeWhile Char.isDigit)),
            ofDigits (String.ofList bits)⟩
        | _ => .error (.other "Error")
    | _ => .error (.other "Error")

def createCredential (id : String) (list : PlainList) (statusPurpose : StatusPurpose) :
    ListCredential where
  context := .arr [.str "https://www.w3.org/ns/credentials/v2"]
  id := id
  type := .arr [.str "VerifiableCredential", .str "BitstringStatusListCredential"]
  credentialSubject :=
    [("id", .str (id ++ "#list")), ("type", .str "BitstringStatusList"),
      ("statusPurpose", .str statusPurpose.text), ("encodedList", .str list.encode)]

theorem isDigit_of_mem_toString {n : Nat} {c : Char} (h : c ∈ (toString n).toList) :
    c.isDigit = true := by
  rw [Nat.toString_eq_ofList_toDigits, String.toList_ofList] at h
  exact Nat.isDigit_of_mem_toDigits (by omega) (by omega) h

/-- The text of a list starts with a digit or a point, the fixed encoding with a letter. -/
theorem text_ne_empty (list : PlainList) :
    String.ofList ('u' :: (toString list.length).toList ++ '.' :: (toString list.bits).toList) ≠
      emptyEncodedList := by
  intro h
  have h := congrArg String.toList h
  rw [String.toList_ofList] at h
  have hH : 'H' ∈ (toString list.length).toList ∨ 'H' = '.' := by
    have hhead := congrArg (fun cs => cs.tail.head?) h
    have hempty : (emptyEncodedList.toList.tail).head? = some 'H' := by decide
    cases hd : (toString list.length).toList with
    | nil =>
        simp only [hd, List.cons_append, List.nil_append, List.tail_cons, List.head?_cons,
          hempty, Option.some.injEq] at hhead
        exact .inr hhead.symm
    | cons c cs =>
        simp only [hd, List.cons_append, List.tail_cons, List.head?_cons, hempty,
          Option.some.injEq] at hhead
        exact .inl (by simp [hhead])
  rcases hH with hmem | heq
  · exact absurd (isDigit_of_mem_toString hmem) (by decide)
  · exact absurd heq (by decide)

theorem decodeList_encode (list : PlainList) : decodeList list.encode = .ok list := by
  unfold encode
  split <;> rename_i hfresh
  · rw [hfresh, decodeList, if_pos rfl]
  · rw [decodeList, if_neg (text_ne_empty list), String.toList_ofList]
    have hdigits : ∀ c ∈ (toString list.length).toList, c.isDigit = true :=
      fun c => isDigit_of_mem_toString
    have hpoint : Char.isDigit '.' = false := by decide
    simp only [List.cons_append, List.takeWhile_append_of_pos hdigits,
      List.dropWhile_append_of_pos hdigits, List.takeWhile_cons, List.dropWhile_cons, hpoint,
      Bool.false_eq_true, if_false, List.append_nil, String.ofList_toList, ofDigits_toString]

theorem getStatus_of_lt {list : PlainList} {index : Nat} (h : index < list.length) :
    list.getStatus index = .ok (list.bits.testBit index) := if_pos h

theorem testBit_flip (bits index j : Nat) :
    (bits ^^^ 2 ^ index).testBit j = (if j = index then !bits.testBit index else bits.testBit j) := by
  rw [Nat.testBit_xor, Nat.testBit_two_pow]
  by_cases h : j = index
  · simp [h]
  · simp [h, Ne.symm h]

theorem setStatus_of_lt {list : PlainList} {index : Nat} (status : Bool)
    (h : index < list.length) :
    ∃ list', list.setStatus index status = .ok list' ∧ list'.length = list.length ∧
      list'.getStatus index = .ok status ∧
      ∀ j ≠ index, list'.getStatus j = list.getStatus j := by
  by_cases hheld : list.bits.testBit index = status
  · refine ⟨list, ?_, rfl, ?_, fun _ _ => rfl⟩
    · rw [setStatus, if_pos h, if_pos hheld]
    · rw [getStatus_of_lt h, hheld]
  · refine ⟨{ list with bits := list.bits ^^^ 2 ^ index }, ?_, rfl, ?_, fun j hj => ?_⟩
    · rw [setStatus, if_pos h, if_neg hheld]
    · have hflip : (list.bits ^^^ 2 ^ index).testBit index = status := by
        rw [testBit_flip, if_pos rfl]
        cases status <;> simpa using hheld
      rw [← hflip]
      exact if_pos h
    · simp only [getStatus, testBit_flip, if_neg hj]

end PlainList

/-- The library over plain lists keeps every promise. -/
def plainLibrary : BitstringLibrary PlainList where
  createList := PlainList.createList
  decodeList := PlainList.decodeList
  encode := PlainList.encode
  length := PlainList.length
  getStatus := PlainList.getStatus
  setStatus := PlainList.setStatus
  createCredential := PlainList.createCredential
  length_createList := by
    intro n b h
    unfold PlainList.createList at h
    split at h
    · cases h
      rfl
    · cases h
  createList_minimum := ⟨PlainList.fresh, if_pos (by decide)⟩
  createList_safe := by
    intro n b h
    unfold PlainList.createList at h
    split at h
    · assumption
    · cases h
  createList_error := by
    intro n e h
    unfold PlainList.createList at h
    split at h
    · cases h
    · cases h
      exact ⟨_, rfl⟩
  decodeList_encode b := ⟨b, PlainList.decodeList_encode b, Nat.le_refl _, fun _ _ => rfl⟩
  getStatus_ok h := ⟨_, PlainList.getStatus_of_lt h⟩
  getStatus_lt := by
    intro b i v h
    unfold PlainList.getStatus at h
    split at h
    · assumption
    · cases h
  setStatus_ok v h := PlainList.setStatus_of_lt v h
  createCredential_id _ _ _ := rfl
  createCredential_encodedList _ _ _ := rfl
  createCredential_statusPurpose _ _ _ := rfl
  createCredential_ttl _ _ _ := rfl

end VcalmStatus
