import VcalmStatus.Services.Records

/-!
The bitstring library underneath the service, behind the surface the service uses of it: create a
list, encode and decode it, read and set one bit, and wrap a list into a credential.
-/

namespace VcalmStatus

open Js

/-- What `createCredential` of the library returns. -/
structure ListCredential where
  context : Json
  id : String
  type : Json
  credentialSubject : JsonObject

/-- The library, and what its documentation promises of it. `B` is its in-memory list. A list that
is decoded may be longer than the one that was encoded: bits travel in whole bytes. -/
structure BitstringLibrary (B : Type) where
  createList : Nat → Except JsError B
  decodeList : String → Except JsError B
  encode : B → String
  length : B → Nat
  getStatus : B → Nat → Except JsError Bool
  setStatus : B → Nat → Bool → Except JsError B
  createCredential : String → B → StatusPurpose → ListCredential
  length_createList : ∀ {n b}, createList n = .ok b → length b = n
  createList_minimum : ∃ b, createList minimumListLength = .ok b
  createList_safe : ∀ {n b}, createList n = .ok b → n ≤ maxSafeInteger
  createList_error : ∀ {n e}, createList n = .error e → ∃ name, e = .other name
  decodeList_encode : ∀ b, ∃ b', decodeList (encode b) = .ok b' ∧ length b ≤ length b' ∧
    ∀ i < length b, getStatus b' i = getStatus b i
  getStatus_ok : ∀ {b i}, i < length b → ∃ v, getStatus b i = .ok v
  getStatus_lt : ∀ {b i v}, getStatus b i = .ok v → i < length b
  setStatus_ok : ∀ {b i} (v : Bool), i < length b → ∃ b', setStatus b i v = .ok b' ∧
    length b' = length b ∧ getStatus b' i = .ok v ∧ ∀ j ≠ i, getStatus b' j = getStatus b j
  createCredential_id : ∀ id b p, (createCredential id b p).id = id
  createCredential_encodedList : ∀ id b p,
    (createCredential id b p).credentialSubject.get? "encodedList" = some (.str (encode b))
  createCredential_statusPurpose : ∀ id b p,
    (createCredential id b p).credentialSubject.get? "statusPurpose" = some (.str p.text)
  createCredential_ttl : ∀ id b p, (createCredential id b p).credentialSubject.get? "ttl" = none

namespace BitstringLibrary

variable {B : Type} (lib : BitstringLibrary B)

/-- The bit an encoded list publishes at an index. -/
def readStatus (encodedList : String)
    (statusListIndex : Nat) : Except JsError Bool := do
  let list ← lib.decodeList encodedList
  lib.getStatus list statusListIndex

variable {lib}

theorem readStatus_eq {encodedList : String} {list : B} {i : Nat}
    (h : lib.decodeList encodedList = .ok list) :
    lib.readStatus encodedList i = lib.getStatus list i := by
  rw [readStatus, h]
  rfl

/-- What is read at one index of the encoding of a changed list: the bit that was set, or the bit
that was there. -/
theorem readStatus_encode_setStatus {encodedList : String} {list list' : B} {i j : Nat}
    {held status v : Bool} (hlist : lib.decodeList encodedList = .ok list)
    (hheld : lib.getStatus list i = .ok held) (hset : lib.setStatus list i status = .ok list')
    (hv : lib.readStatus encodedList j = .ok v) :
    lib.readStatus (lib.encode list') j = .ok (if j = i then status else v) := by
  rw [readStatus_eq hlist] at hv
  obtain ⟨list'', hset', hlength, hself, hother⟩ :=
    lib.setStatus_ok status (lib.getStatus_lt hheld)
  rw [hset, Except.ok.injEq] at hset'
  subst hset'
  obtain ⟨decoded, hdecoded, _, hsame⟩ := lib.decodeList_encode list'
  rw [readStatus_eq hdecoded, hsame j (hlength ▸ lib.getStatus_lt hv)]
  split <;> rename_i hj
  · rw [hj, hself]
  · rw [hother j hj, hv]

end BitstringLibrary

end VcalmStatus
