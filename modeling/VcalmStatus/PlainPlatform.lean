import Mathlib.Data.List.TakeWhile
import VcalmStatus.UrlPaths

/-!
A platform that reads the plainest of URLs: `http` or `https`, a host of lower-case letters, digits,
dots and hyphens without a port, and a path that is left as it is. On these it answers as the URL
standard says; everything else it refuses. JSON texts are looked up. The module shows that what the
service relies on can be had, and gives the concrete runs something to run on.
-/

namespace VcalmStatus

open Js

namespace PlainPlatform

def hostChars : List Char := "abcdefghijklmnopqrstuvwxyz0123456789.-".toList

/-- Host and path of what follows `//`. -/
def parseAuthority (protocol : String) (rest : List Char) : Option Url :=
  let host := rest.takeWhile fun c => c ≠ '/' && c ≠ '?' && c ≠ '#'
  let path := (rest.dropWhile fun c => c ≠ '/' && c ≠ '?' && c ≠ '#').takeWhile
    fun c => c ≠ '?' && c ≠ '#'
  if host ≠ [] && host.all (· ∈ hostChars) then
    some
      { protocol := protocol, host := String.ofList host, hostname := String.ofList host
        pathname := if path = [] then "/" else String.ofList path }
  else none

def parseUrl (s : String) : Option Url :=
  match s.toList with
  | 'h' :: 't' :: 't' :: 'p' :: ':' :: '/' :: '/' :: rest => parseAuthority "http:" rest
  | 'h' :: 't' :: 't' :: 'p' :: 's' :: ':' :: '/' :: '/' :: rest => parseAuthority "https:" rest
  | _ => none

def toLowerCase (s : String) : String := String.ofList (s.toList.map Char.toLower)

/-- The path of a URL is a suffix of it. -/
theorem pathname_of_parseAuthority {protocol : String} {rest : List Char} {u : Url}
    (hrest : ∀ c ∈ rest, c ≠ '?' ∧ c ≠ '#') (h : parseAuthority protocol rest = some u) :
    u.pathname = "/" ∨ ∃ cs, '/' :: cs <:+ rest ∧ u.pathname = String.ofList ('/' :: cs) := by
  simp only [parseAuthority] at h
  split at h
  · cases h
    set path := rest.dropWhile fun c => c ≠ '/' && c ≠ '?' && c ≠ '#' with hpath
    have hsuffix : path <:+ rest := List.dropWhile_suffix _
    have htake : path.takeWhile (fun c => c ≠ '?' && c ≠ '#') = path :=
      List.takeWhile_eq_self_iff.mpr fun c hc => by simpa using hrest c (hsuffix.subset hc)
    cases hcs : path with
    | nil => exact .inl (by simp)
    | cons c cs =>
        -- The character that ended the host is the slash.
        have hhead : (c ≠ '/' && c ≠ '?' && c ≠ '#') = false := by
          have := List.head?_dropWhile_not (fun c => c ≠ '/' && c ≠ '?' && c ≠ '#') rest
          rw [← hpath, hcs] at this
          simpa using this
        obtain ⟨hq, hf⟩ := hrest c (hsuffix.subset (hcs ▸ List.mem_cons_self))
        have hc : c = '/' := by simpa [hq, hf] using hhead
        refine .inr ⟨cs, hc ▸ hcs ▸ hsuffix, ?_⟩
        rw [← hcs, htake, hcs, hc]
        simp
  · cases h

theorem pathname_of_parseUrl {s : String} {u : Url} (hs : ∀ c ∈ s.toList, c ≠ '?' ∧ c ≠ '#')
    (h : parseUrl s = some u) :
    u.pathname = "/" ∨ ∃ cs, '/' :: cs <:+ s.toList ∧ u.pathname = String.ofList ('/' :: cs) := by
  have found : ∀ (protocol : String) (rest : List Char), rest <:+ s.toList →
      parseAuthority protocol rest = some u → u.pathname = "/" ∨
        ∃ cs, '/' :: cs <:+ s.toList ∧ u.pathname = String.ofList ('/' :: cs) := by
    intro protocol rest hsuffix hparsed
    obtain hroot | ⟨cs, hcs, hpath⟩ :=
      pathname_of_parseAuthority (fun c hc => hs c (hsuffix.subset hc)) hparsed
    · exact .inl hroot
    · exact .inr ⟨cs, hcs.trans hsuffix, hpath⟩
  unfold parseUrl at h
  split at h
  · rename_i rest htext
    exact found _ rest ⟨"http://".toList, by rw [htext]; rfl⟩ h
  · rename_i rest htext
    exact found _ rest ⟨"https://".toList, by rw [htext]; rfl⟩ h
  · cases h

theorem append_of_suffix {α : Type} {sep : α} {l cs t : List α} (h : sep :: cs <:+ l ++ sep :: t)
    (ht : sep ∉ t) : ∃ l', sep :: cs = l' ++ sep :: t := by
  obtain ⟨pre, hpre⟩ := h
  obtain ⟨x, hl, hcs⟩ | ⟨x, hl, hcs⟩ := List.append_eq_append_iff.mp hpre
  · exact ⟨x, hcs⟩
  · cases x with
    | nil => exact ⟨[], hcs.symm⟩
    | cons y x =>
        rw [List.cons_append, List.cons.injEq] at hcs
        exact absurd (hcs.2 ▸ List.mem_append_right _ List.mem_cons_self) ht

theorem encoded_chars {id : String} :
    ∀ c ∈ (encodeURIComponent id).toList, c ≠ '/' ∧ c ≠ '?' ∧ c ≠ '#' := by
  have hreserved : ∀ c, c = '/' ∨ c = '?' ∨ c = '#' → ¬(isUnreserved c = true ∨ c = '%') := by
    rintro c (rfl | rfl | rfl) <;> decide
  intro c hc
  have hchar := encodeURIComponent_chars c hc
  exact ⟨fun h => hreserved c (.inl h) hchar, fun h => hreserved c (.inr (.inl h)) hchar,
    fun h => hreserved c (.inr (.inr h)) hchar⟩

/-- Where a text ends in an encoded component, that is the last segment of its path. -/
theorem segments_encoded {base id a b : String} {u : Url}
    (hbase : ∀ c ∈ base.toList, c ≠ '?' ∧ c ≠ '#') (hid : id ∉ dotSegments)
    (h : parseUrl (base ++ "/" ++ encodeURIComponent id) = some u) (hu : u.segments = [a, b]) :
    b = encodeURIComponent id := by
  have htext : (base ++ "/" ++ encodeURIComponent id).toList =
      base.toList ++ '/' :: (encodeURIComponent id).toList := by
    simp
  have hclean : ∀ c ∈ (base ++ "/" ++ encodeURIComponent id).toList, c ≠ '?' ∧ c ≠ '#' := by
    intro c hc
    rw [htext, List.mem_append, List.mem_cons] at hc
    obtain hc | rfl | hc := hc
    · exact hbase c hc
    · decide
    · exact (encoded_chars c hc).2
  have hslash : '/' ∉ (encodeURIComponent id).toList := fun hmem => (encoded_chars _ hmem).1 rfl
  have hne : encodeURIComponent id ≠ "" :=
    encodeURIComponent_ne_empty fun hempty => hid (hempty ▸ List.mem_cons_self)
  obtain hroot | ⟨cs, hcs, hpath⟩ := pathname_of_parseUrl hclean h
  · have hnone : (split "/" '/').filter (· ≠ "") = [] := by decide
    rw [Url.segments, hroot, hnone] at hu
    cases hu
  · rw [htext] at hcs
    obtain ⟨l, hl⟩ := append_of_suffix hcs hslash
    rw [Url.segments, hpath, hl, split_append hslash, List.filter_append] at hu
    have hlast : [String.ofList (encodeURIComponent id).toList].filter (· ≠ "") =
        [encodeURIComponent id] := by
      simp [hne]
    rw [hlast, show [a, b] = [a] ++ [b] from rfl] at hu
    exact (List.cons.inj (List.append_inj' hu rfl).2).1.symm

/-- The host that was parsed. -/
structure IsHost (u : Url) (cs : List Char) : Prop where
  host : u.host = String.ofList cs
  hostname : u.hostname = String.ofList cs
  ne_nil : cs ≠ []
  chars : ∀ c ∈ cs, c ∈ hostChars

/-- Without a port both names of it are the host. -/
theorem IsHost.eq_of_or {u : Url} {cs : List Char} {a : String} (h : IsHost u cs)
    (ha : a = u.host ∨ a = u.hostname) : a = String.ofList cs := by
  rcases ha with rfl | rfl
  · exact h.host
  · exact h.hostname

theorem isHost_of_parseAuthority {protocol : String} {rest : List Char} {u : Url}
    (h : parseAuthority protocol rest = some u) : ∃ host, IsHost u host := by
  simp only [parseAuthority] at h
  split at h <;> rename_i hhost
  · cases h
    rw [Bool.and_eq_true, decide_eq_true_eq, List.all_eq_true] at hhost
    exact ⟨_, rfl, rfl, hhost.1, fun c hc => by simpa using hhost.2 c hc⟩
  · cases h

theorem isHost_of_parseUrl {s : String} {u : Url} (h : parseUrl s = some u) :
    ∃ host, IsHost u host := by
  unfold parseUrl at h
  generalize s.toList = text at h
  split at h
  · exact isHost_of_parseAuthority h
  · exact isHost_of_parseAuthority h
  · cases h

theorem hostChars_spec : ∀ c ∈ hostChars, isWhitespace c = false ∧ c.toLower = c ∧ c ≠ '/' ∧
    (c ≠ '/' && c ≠ '?' && c ≠ '#') = true := by
  have hall : (hostChars.all fun c => !isWhitespace c && c.toLower = c &&
      (c ≠ '/' && c ≠ '?' && c ≠ '#')) = true := by decide
  intro c hc
  have hspec := List.all_eq_true.mp hall c hc
  simp only [Bool.and_eq_true, Bool.not_eq_true', decide_eq_true_eq] at hspec ⊢
  exact ⟨hspec.1.1, hspec.1.2, hspec.2.1.1, hspec.2⟩

/-- A host is read back as it is. -/
theorem parseUrl_host {u : Url} {host : List Char} (h : IsHost u host) :
    parseUrl ("http://" ++ String.ofList host) =
      some ⟨"http:", String.ofList host, String.ofList host, "/"⟩ := by
  have hchars : ∀ c ∈ host, (c ≠ '/' && c ≠ '?' && c ≠ '#') = true :=
    fun c hc => (hostChars_spec c (h.chars c hc)).2.2.2
  have hall : host.all (· ∈ hostChars) = true := by simpa using h.chars
  have htext : ("http://" ++ String.ofList host).toList =
      'h' :: 't' :: 't' :: 'p' :: ':' :: '/' :: '/' :: host := by
    simp
  have htake := List.takeWhile_eq_self_iff.mpr hchars
  have hdrop := List.dropWhile_eq_nil_iff.mpr hchars
  simp only [parseUrl, htext, parseAuthority, htake, hdrop, hall, List.takeWhile_nil]
  simp [h.ne_nil]

/-! ### Paths -/

/-- The schemes, and what follows `//` in a text of one of them. -/
theorem parseUrl_eq_some_iff {s : String} {u : Url} :
    parseUrl s = some u ↔ ∃ protocol rest, (protocol = "http:" ∨ protocol = "https:") ∧
      s.toList = protocol.toList ++ '/' :: '/' :: rest ∧ parseAuthority protocol rest = some u := by
  constructor
  · intro h
    unfold parseUrl at h
    split at h
    · rename_i rest htext
      exact ⟨_, rest, .inl rfl, htext, h⟩
    · rename_i rest htext
      exact ⟨_, rest, .inr rfl, htext, h⟩
    · cases h
  · rintro ⟨protocol, rest, rfl | rfl, htext, h⟩
    · have htext : s.toList = 'h' :: 't' :: 't' :: 'p' :: ':' :: '/' :: '/' :: rest := htext
      rw [parseUrl, htext]
      exact h
    · have htext : s.toList = 'h' :: 't' :: 't' :: 'p' :: 's' :: ':' :: '/' :: '/' :: rest := htext
      rw [parseUrl, htext]
      exact h

/-- Where a query or a fragment begins, host and path are read. -/
theorem parseAuthority_query {protocol : String} {rest : List Char} {c : Char}
    (hc : c = '?' ∨ c = '#') (cs cs' : List Char) :
    parseAuthority protocol (rest ++ c :: cs) = parseAuthority protocol (rest ++ c :: cs') := by
  have hstop : (c ≠ '/' && c ≠ '?' && c ≠ '#') = false ∧ (c ≠ '?' && c ≠ '#') = false := by
    rcases hc with rfl | rfl <;> decide
  have htake : ∀ (p : Char → Bool) (xs ys : List Char), p c = false →
      (xs ++ c :: ys).takeWhile p = xs.takeWhile p := by
    intro p xs ys hp
    induction xs with
    | nil => simp [hp]
    | cons x xs ih => simp only [List.cons_append, List.takeWhile_cons, ih]
  have hdrop : ∀ (p : Char → Bool) (xs ys : List Char), p c = false →
      (xs ++ c :: ys).dropWhile p = xs.dropWhile p ++ c :: ys := by
    intro p xs ys hp
    induction xs with
    | nil => simp [hp]
    | cons x xs ih =>
        rw [List.cons_append, List.dropWhile_cons, List.dropWhile_cons, ih]
        split <;> rfl
  simp only [parseAuthority]
  rw [htake _ rest cs hstop.1, htake _ rest cs' hstop.1, hdrop _ rest cs hstop.1,
    hdrop _ rest cs' hstop.1, htake _ _ cs hstop.2, htake _ _ cs' hstop.2]

/-- What comes after that is no matter. -/
theorem parseUrl_query {front cs : List Char} {c : Char} (hc : c = '?' ∨ c = '#') {u : Url}
    (cs' : List Char) (h : parseUrl (String.ofList (front ++ c :: cs)) = some u) :
    parseUrl (String.ofList (front ++ c :: cs')) = some u := by
  obtain ⟨protocol, rest, hprotocol, htext, hparsed⟩ := parseUrl_eq_some_iff.mp h
  have hscheme : c ∉ protocol.toList ++ ['/', '/'] := by
    rcases hc with rfl | rfl <;> rcases hprotocol with rfl | rfl <;> decide
  rw [String.toList_ofList, show protocol.toList ++ '/' :: '/' :: rest =
    (protocol.toList ++ ['/', '/']) ++ rest by simp] at htext
  obtain ⟨x, hx, hrest⟩ | ⟨x, hx, hrest⟩ := List.append_eq_append_iff.mp htext
  · cases x with
    | nil =>
        refine parseUrl_eq_some_iff.mpr ⟨protocol, c :: cs', hprotocol, ?_, ?_⟩
        · rw [String.toList_ofList, ← List.append_nil front, ← hx]
          simp
        · have hsame : parseAuthority protocol ([] ++ c :: cs') =
              parseAuthority protocol ([] ++ c :: cs) := parseAuthority_query hc cs' cs
          rw [List.nil_append, List.nil_append] at hsame
          rw [hsame, hrest]
          exact hparsed
    | cons y ys =>
        obtain ⟨rfl, -⟩ := List.cons_eq_cons.mp hrest
        exact absurd (hx ▸ List.mem_append_right _ List.mem_cons_self) hscheme
  · subst hrest
    refine parseUrl_eq_some_iff.mpr ⟨protocol, x ++ c :: cs', hprotocol, ?_, ?_⟩
    · rw [String.toList_ofList, hx]
      simp
    · rw [parseAuthority_query hc cs' cs]
      exact hparsed

/-- Scheme, host and path of a bare text, which are all there is to it. -/
structure Reads (s : List Char) (u : Url) (host path : List Char) : Prop where
  scheme : u.protocol = "http:" ∨ u.protocol = "https:"
  text : s = u.protocol.toList ++ '/' :: '/' :: (host ++ path)
  host : IsHost u host
  slash : path = [] ∨ ∃ cs, path = '/' :: cs
  pathname : u.pathname = if path = [] then "/" else String.ofList path

theorem parseUrl_iff_reads {s : String} {u : Url} (hs : IsBare s) :
    parseUrl s = some u ↔ ∃ host path, Reads s.toList u host path := by
  set isHostChar : Char → Bool := fun c => c ≠ '/' && c ≠ '?' && c ≠ '#' with hisHostChar
  rw [parseUrl_eq_some_iff]
  constructor
  · rintro ⟨protocol, rest, hprotocol, htext, hparsed⟩
    have hrest : ∀ c ∈ rest, c ≠ '?' ∧ c ≠ '#' := fun c hc => hs c (by simp [htext, hc])
    have hpath : (rest.dropWhile isHostChar).takeWhile (fun c => c ≠ '?' && c ≠ '#') =
        rest.dropWhile isHostChar :=
      List.takeWhile_eq_self_iff.mpr fun c hc => by
        simpa using hrest c ((List.dropWhile_suffix _).subset hc)
    simp only [parseAuthority, ← hisHostChar, hpath] at hparsed
    split at hparsed <;> rename_i hhost
    · cases hparsed
      rw [Bool.and_eq_true, decide_eq_true_eq, List.all_eq_true] at hhost
      refine ⟨rest.takeWhile isHostChar, rest.dropWhile isHostChar, hprotocol, ?_,
        ⟨rfl, rfl, hhost.1, fun c hc => by simpa using hhost.2 c hc⟩, ?_, rfl⟩
      · rw [List.takeWhile_append_dropWhile]
        exact htext
      · cases hdrop : rest.dropWhile isHostChar with
        | nil => exact .inl rfl
        | cons c cs =>
            have hhead := List.head?_dropWhile_not isHostChar rest
            have hc : c ∈ rest := (List.dropWhile_suffix isHostChar).subset (by simp [hdrop])
            rw [hdrop] at hhead
            have hslash : c = '/' := by
              simpa [hisHostChar, (hrest c hc).1, (hrest c hc).2] using hhead
            exact .inr ⟨cs, by rw [hslash]⟩
    · cases hparsed
  · rintro ⟨host, path, h⟩
    refine ⟨u.protocol, host ++ path, h.scheme, h.text, ?_⟩
    have hhost : ∀ c ∈ host, isHostChar c = true :=
      fun c hc => (hostChars_spec c (h.host.chars c hc)).2.2.2
    have hstop : path.takeWhile isHostChar = [] ∧ path.dropWhile isHostChar = path := by
      obtain rfl | ⟨cs, rfl⟩ := h.slash
      · exact ⟨rfl, rfl⟩
      · exact ⟨rfl, rfl⟩
    have hpath : path.takeWhile (fun c => c ≠ '?' && c ≠ '#') = path :=
      List.takeWhile_eq_self_iff.mpr fun c hc => by
        simpa using hs c (by rw [h.text]; simp [hc])
    have hall : host.all (· ∈ hostChars) = true := by simpa using h.host.chars
    simp only [parseAuthority, ← hisHostChar]
    rw [List.takeWhile_append_of_pos hhost, List.dropWhile_append_of_pos hhost, hstop.1, hstop.2,
      hpath, List.append_nil, hall, if_pos (by simp [h.host.ne_nil])]
    obtain ⟨protocol, hostText, hostname, pathname⟩ := u
    have hsame := h.host.host
    have hname := h.host.hostname
    have hpathname := h.pathname
    dsimp only at hsame hname hpathname ⊢
    rw [hsame, hname, hpathname]

/-- A component that is appended to a path is its last segment. -/
theorem segments_append {u v : Url} {path x : List Char} (hx : '/' ∉ x) (hne : x ≠ [])
    (hu : u.pathname = if path = [] then "/" else String.ofList path)
    (hv : v.pathname = String.ofList (path ++ '/' :: x)) :
    v.segments = u.segments ++ [String.ofList x] := by
  have hkeep : [String.ofList x].filter (· ≠ "") = [String.ofList x] := by
    have hx : String.ofList x ≠ "" := fun h => hne (by simpa using congrArg String.toList h)
    simp [hx]
  have hfront : (split (String.ofList path) '/').filter (· ≠ "") = u.segments := by
    rw [Url.segments, hu]
    split <;> rename_i hpath
    · subst hpath
      decide
    · rfl
  rw [Url.segments, hv, split_append hx, List.filter_append, hkeep, hfront]

theorem Reads.append {t x host path : List Char} {u : Url} (h : Reads t u host path) :
    Reads (t ++ '/' :: x) { u with pathname := String.ofList (path ++ '/' :: x) } host
      (path ++ '/' :: x) where
  scheme := h.scheme
  text := by simp [h.text]
  host := ⟨h.host.host, h.host.hostname, h.host.ne_nil, h.host.chars⟩
  slash := by
    obtain rfl | ⟨cs, rfl⟩ := h.slash
    · exact .inr ⟨x, rfl⟩
    · exact .inr ⟨cs ++ '/' :: x, rfl⟩
  pathname := by simp

/-- Where the path has segments at all, an appended component can be taken away again. -/
theorem Reads.of_append {t x host path : List Char} {v : Url} (h : Reads (t ++ '/' :: x) v host path)
    (hx : '/' ∉ x) (hsegments : v.segments ≠ []) :
    ∃ front, path = front ++ '/' :: x ∧
      Reads t { v with pathname := if front = [] then "/" else String.ofList front } host front := by
  have hne : path ≠ [] := by
    intro hnil
    refine hsegments ?_
    rw [Url.segments, h.pathname, if_pos hnil]
    decide
  obtain ⟨cs, hcs⟩ := h.slash.resolve_left hne
  have hsuffix : '/' :: cs <:+ t ++ '/' :: x := by
    rw [h.text, ← hcs]
    exact ⟨v.protocol.toList ++ '/' :: '/' :: host, by simp⟩
  obtain ⟨front, hfront⟩ := append_of_suffix hsuffix hx
  have hpath : path = front ++ '/' :: x := hcs.trans hfront
  refine ⟨front, hpath, h.scheme, ?_,
    ⟨h.host.host, h.host.hostname, h.host.ne_nil, h.host.chars⟩, ?_, rfl⟩
  · have htext := h.text
    rw [hpath, show v.protocol.toList ++ '/' :: '/' :: (host ++ (front ++ '/' :: x)) =
      (v.protocol.toList ++ '/' :: '/' :: (host ++ front)) ++ '/' :: x by simp] at htext
    exact List.append_cancel_right htext
  · cases front with
    | nil => exact .inl rfl
    | cons c front =>
        rw [List.cons_append] at hfront
        exact .inr ⟨front, by rw [(List.cons_eq_cons.mp hfront).1]⟩

end PlainPlatform

/-- The plain platform with the texts it can read as JSON. -/
def plainPlatform (texts : List (String × Json)) : Platform where
  parseUrl := PlainPlatform.parseUrl
  parseJson s := (texts.find? fun text => text.1 = s).map (·.2)
  maxNesting := 1000
  toLowerCase := PlainPlatform.toLowerCase
  verify _ _ _ := none
  zodMessage _ := "Invalid input"
  isAuthority_host := by
    intro s u a hu _ ha
    obtain ⟨host, h⟩ := PlainPlatform.isHost_of_parseUrl hu
    have hsame := h.eq_of_or ha
    have hne : String.ofList host ≠ "" := by
      intro hempty
      exact h.ne_nil (by simpa using congrArg String.toList hempty)
    have hchars : ∀ c ∈ host, isWhitespace c = false ∧ c ≠ '/' := fun c hc =>
      have hspec := PlainPlatform.hostChars_spec c (h.chars c hc)
      ⟨hspec.1, hspec.2.2.1⟩
    simpa [hsame, isAuthority, hne] using hchars
  parseUrl_host := by
    intro s u a hu _ ha
    obtain ⟨host, h⟩ := PlainPlatform.isHost_of_parseUrl hu
    have hsame := h.eq_of_or ha
    rw [hsame, h.hostname]
    exact ⟨_, PlainPlatform.parseUrl_host h, rfl⟩
  segments_encoded := PlainPlatform.segments_encoded
  toLowerCase_hostname := by
    intro s u hu _
    obtain ⟨host, h⟩ := PlainPlatform.isHost_of_parseUrl hu
    rw [h.hostname, PlainPlatform.toLowerCase, String.toList_ofList]
    refine congrArg String.ofList ?_
    calc host.map Char.toLower = host.map id :=
          List.map_congr_left fun c hc => (PlainPlatform.hostChars_spec c (h.chars c hc)).2.1
      _ = host := List.map_id host

namespace PlainPlatform

/-- The parser that reads a path with dot segments in it as no URL. -/
def parseTidyUrl (s : String) : Option Url :=
  (parseUrl s).filter fun u => u.segments.all fun segment => segment ≠ "." && segment ≠ ".."

theorem parseTidyUrl_eq_some_iff {s : String} {u : Url} :
    parseTidyUrl s = some u ↔ parseUrl s = some u ∧ "." ∉ u.segments ∧ ".." ∉ u.segments := by
  rw [parseTidyUrl, Option.filter_eq_some_iff, List.all_eq_true]
  refine and_congr_right fun _ => ⟨fun h => ⟨fun hdot => ?_, fun hdot => ?_⟩, ?_⟩
  · simpa using h _ hdot
  · simpa using h _ hdot
  · rintro ⟨hone, htwo⟩ segment hsegment
    rw [Bool.and_eq_true, decide_eq_true_eq, decide_eq_true_eq]
    exact ⟨fun h => hone (h ▸ hsegment), fun h => htwo (h ▸ hsegment)⟩

/-- A component that is no dot segment is one once it is encoded. -/
theorem encoded_segment {a : String} (ha : a ∉ dotSegments) :
    '/' ∉ (encodeURIComponent a).toList ∧ (encodeURIComponent a).toList ≠ [] ∧
      encodeURIComponent a ≠ "." ∧ encodeURIComponent a ≠ ".." := by
  have hdots : ∀ dot ∈ dotSegments, encodeURIComponent dot = dot := by decide +kernel
  have hne : ∀ dot ∈ dotSegments, encodeURIComponent a ≠ dot := fun dot hdot h =>
    ha (encodeURIComponent_injective (h.trans (hdots dot hdot).symm) ▸ hdot)
  refine ⟨fun hmem => (encoded_chars _ hmem).1 rfl, fun hnil => ?_, hne _ (by decide),
    hne _ (by decide)⟩
  exact hne "" (by decide) (String.toList_inj.mp hnil)

theorem isBare_append {base a : String} (h : IsBare base) :
    IsBare (base ++ "/" ++ encodeURIComponent a) := by
  intro c hc
  simp only [String.toList_append, List.mem_append] at hc
  obtain (hc | hc) | hc := hc
  · exact h c hc
  · obtain rfl : c = '/' := by simpa using hc
    decide
  · exact (encoded_chars c hc).2

theorem toList_append_component (base a : String) :
    (base ++ "/" ++ encodeURIComponent a).toList =
      base.toList ++ '/' :: (encodeURIComponent a).toList := by
  simp

/-- A component that is appended to a URL is one more segment. -/
theorem parseTidyUrl_append {s b : String} {u : Url} (hs : IsBare s) (hb : b ∉ dotSegments)
    (hu : parseTidyUrl s = some u) :
    ∃ v, parseTidyUrl (s ++ "/" ++ encodeURIComponent b) = some v ∧
      v.segments = u.segments ++ [encodeURIComponent b] := by
  obtain ⟨hslash, hne, hone, htwo⟩ := encoded_segment hb
  obtain ⟨hparsed, hdots⟩ := parseTidyUrl_eq_some_iff.mp hu
  obtain ⟨host, path, hreads⟩ := (parseUrl_iff_reads hs).mp hparsed
  have happend := hreads.append (x := (encodeURIComponent b).toList)
  rw [← toList_append_component] at happend
  have hv := (parseUrl_iff_reads (isBare_append hs)).mpr ⟨_, _, happend⟩
  have hsegments : Url.segments { u with
      pathname := String.ofList (path ++ '/' :: (encodeURIComponent b).toList) } =
      u.segments ++ [encodeURIComponent b] := by
    have h := segments_append hslash hne hreads.pathname
      (v := { u with pathname := String.ofList (path ++ '/' :: (encodeURIComponent b).toList) }) rfl
    rwa [String.ofList_toList] at h
  refine ⟨_, parseTidyUrl_eq_some_iff.mpr ⟨hv, ?_⟩, hsegments⟩
  rw [hsegments]
  simp [hdots, hone.symm, htwo.symm]

/-- What was appended can be taken away again, where there are segments at all. -/
theorem of_parseUrl_append {s b : String} {v : Url} (hs : IsBare s)
    (hslash : '/' ∉ (encodeURIComponent b).toList) (hne : (encodeURIComponent b).toList ≠ [])
    (hv : parseUrl (s ++ "/" ++ encodeURIComponent b) = some v) (hsegments : v.segments ≠ []) :
    ∃ u, parseUrl s = some u ∧ v.segments = u.segments ++ [encodeURIComponent b] := by
  obtain ⟨host, path, hreads⟩ := (parseUrl_iff_reads (isBare_append hs)).mp hv
  rw [toList_append_component] at hreads
  obtain ⟨front, hpath, hfront⟩ := hreads.of_append hslash hsegments
  refine ⟨_, (parseUrl_iff_reads hs).mpr ⟨_, _, hfront⟩, ?_⟩
  have hpathname : v.pathname =
      String.ofList (front ++ '/' :: (encodeURIComponent b).toList) := by
    rw [hreads.pathname, hpath, if_neg (by simp)]
  have h := segments_append hslash hne hfront.pathname hpathname
  rwa [String.ofList_toList] at h

/-- Two texts that agree up to a query or fragment are parsed alike. -/
theorem parseTidyUrl_query {base : String} (rest : String) (h : ¬IsBare base) :
    parseTidyUrl (base ++ rest) = parseTidyUrl base := by
  obtain ⟨c, hmem, hc⟩ : ∃ c ∈ base.toList, c = '?' ∨ c = '#' := by
    by_contra hnone
    refine h fun c hmem => ⟨fun hc => hnone ⟨c, hmem, .inl hc⟩, fun hc => hnone ⟨c, hmem, .inr hc⟩⟩
  obtain ⟨front, cs, hbase⟩ := List.append_of_mem hmem
  have hshort : base = String.ofList (front ++ c :: cs) := by rw [← hbase, String.ofList_toList]
  have hlong : base ++ rest = String.ofList (front ++ c :: (cs ++ rest.toList)) := by
    rw [← String.toList_inj, String.toList_append, hbase, String.toList_ofList]
    simp
  have hparse : parseUrl (base ++ rest) = parseUrl base := by
    ext u
    rw [hlong, hshort]
    exact ⟨parseUrl_query hc cs, parseUrl_query hc _⟩
  rw [parseTidyUrl, hparse]
  rfl

end PlainPlatform

/-- The plain platform without the paths that are rewritten. -/
def tidyPlatform (texts : List (String × Json)) : Platform :=
  { plainPlatform texts with
    parseUrl := PlainPlatform.parseTidyUrl
    isAuthority_host := fun hu =>
      (plainPlatform texts).isAuthority_host (PlainPlatform.parseTidyUrl_eq_some_iff.mp hu).1
    parseUrl_host := by
      intro s u a hu _ ha
      obtain ⟨host, h⟩ := PlainPlatform.isHost_of_parseUrl
        (PlainPlatform.parseTidyUrl_eq_some_iff.mp hu).1
      have hsame := h.eq_of_or ha
      rw [hsame, h.hostname]
      refine ⟨_, PlainPlatform.parseTidyUrl_eq_some_iff.mpr
        ⟨PlainPlatform.parseUrl_host h, ?_⟩, rfl⟩
      have hnone : ∀ u : Url, u.pathname = "/" → u.segments = [] := by
        intro u hu
        rw [Url.segments, hu]
        decide
      simp [hnone]
    toLowerCase_hostname := fun hu =>
      (plainPlatform texts).toLowerCase_hostname (PlainPlatform.parseTidyUrl_eq_some_iff.mp hu).1
    segments_encoded := fun hbase hid hu =>
      (plainPlatform texts).segments_encoded hbase hid
        (PlainPlatform.parseTidyUrl_eq_some_iff.mp hu).1 }

/-- It treats paths as the standard says. -/
theorem urlPaths_tidyPlatform (texts : List (String × Json)) : UrlPaths (tidyPlatform texts) where
  append := by
    intro base a b segments hbase ha hb
    have hbare := PlainPlatform.isBare_append (a := a) hbase
    constructor
    · rintro ⟨u, hu, hsegments⟩
      obtain ⟨v, hv, happend⟩ := PlainPlatform.parseTidyUrl_append hbare hb hu
      exact ⟨v, hv, by rw [happend, hsegments]; simp⟩
    · rintro ⟨v, hv, hsegments⟩
      obtain ⟨hslash, hne, -⟩ := PlainPlatform.encoded_segment hb
      obtain ⟨hparsed, hdots⟩ := PlainPlatform.parseTidyUrl_eq_some_iff.mp hv
      obtain ⟨u, hu, hlast⟩ := PlainPlatform.of_parseUrl_append hbare hslash hne hparsed
        (by simp [hsegments])
      refine ⟨u, PlainPlatform.parseTidyUrl_eq_some_iff.mpr ⟨hu, ?_⟩, ?_⟩
      · rw [hlast] at hdots
        exact ⟨fun h => hdots.1 (List.mem_append_left _ h),
          fun h => hdots.2 (List.mem_append_left _ h)⟩
      · have hboth : (segments ++ [encodeURIComponent a]) ++ [encodeURIComponent b] =
            u.segments ++ [encodeURIComponent b] := by
          rw [← hlast, hsegments]
          simp
        exact (List.append_cancel_right hboth).symm
  dots := by
    intro base a dot u x y hbase _ hdot hu hsegments
    -- The segment that was appended would be there.
    have hdotText : encodeURIComponent dot = dot ∧ '/' ∉ dot.toList ∧ dot.toList ≠ [] := by
      rcases hdot with rfl | rfl <;> decide +kernel
    obtain ⟨hparsed, hdots⟩ := PlainPlatform.parseTidyUrl_eq_some_iff.mp hu
    obtain ⟨v, -, hlast⟩ := PlainPlatform.of_parseUrl_append
      (PlainPlatform.isBare_append (a := a) hbase) (hdotText.1.symm ▸ hdotText.2.1)
      (hdotText.1.symm ▸ hdotText.2.2) hparsed (by simp [hsegments])
    rw [hlast, hdotText.1] at hdots
    rcases hdot with rfl | rfl
    · exact absurd (List.mem_append_right _ List.mem_cons_self) hdots.1
    · exact absurd (List.mem_append_right _ List.mem_cons_self) hdots.2
  query := by
    intro base rest h
    exact congrArg _ (PlainPlatform.parseTidyUrl_query rest h)

end VcalmStatus
