import VcalmStatus.Cli.Provisioning

/-!
Where the expressions of provisioning match in a text. White space goes over line ends in them, and
a line begins for them after every line terminator, so a place they find need not be on one line of
the file.
-/

namespace VcalmStatus

open Js

namespace Provisioning

open EnvFile

/-! ### Line starts -/

/-- `^` matches after this. -/
def AtLineStart (before : List Char) : Prop := ∀ c ∈ before.getLast?, isLineTerminator c = true

theorem mem_tails_iff {cs line : List Char} :
    line ∈ lineStarts.tails cs ↔
      ∃ before c, cs = before ++ c :: line ∧ isLineTerminator c = true := by
  induction cs with
  | nil => simp [lineStarts.tails]
  | cons d cs ih =>
      have hlater : line ∈ lineStarts.tails cs ↔
          ∃ before c, d :: cs = (d :: before) ++ c :: line ∧ isLineTerminator c = true := by
        simp [ih]
      rw [lineStarts.tails]
      constructor
      · intro h
        split at h <;> rename_i hd
        · rcases List.mem_cons.mp h with rfl | h
          · exact ⟨[], d, rfl, hd⟩
          · obtain ⟨before, c, hcs, hc⟩ := hlater.mp h
            exact ⟨d :: before, c, hcs, hc⟩
        · obtain ⟨before, c, hcs, hc⟩ := hlater.mp h
          exact ⟨d :: before, c, hcs, hc⟩
      · rintro ⟨before, c, hcs, hc⟩
        cases before with
        | nil =>
            cases hcs
            rw [if_pos hc]
            exact List.mem_cons_self
        | cons e before =>
            obtain ⟨rfl, htail⟩ := List.cons_eq_cons.mp hcs
            have hmem := hlater.mpr ⟨before, c, by rw [htail]; rfl, hc⟩
            split
            · exact List.mem_cons_of_mem _ hmem
            · exact hmem

theorem mem_lineStarts_iff {contents : String} {line : List Char} :
    line ∈ lineStarts contents ↔
      ∃ before, contents.toList = before ++ line ∧ AtLineStart before := by
  rw [lineStarts, List.mem_cons, mem_tails_iff]
  constructor
  · rintro (rfl | ⟨before, c, hcs, hc⟩)
    · exact ⟨[], rfl, nofun⟩
    · refine ⟨before ++ [c], by simp [hcs], ?_⟩
      intro d hd
      obtain rfl : c = d := by simpa using hd
      exact hc
  · rintro ⟨before, hcs, hstart⟩
    cases hlast : before.getLast? with
    | none =>
        rw [List.getLast?_eq_none_iff.mp hlast] at hcs
        exact .inl hcs.symm
    | some c =>
        obtain ⟨front, rfl⟩ := List.getLast?_eq_some_iff.mp hlast
        exact .inr ⟨front, c, by simpa using hcs, hstart c hlast⟩

/-- They come from the first to the last. -/
theorem pairwise_tails (cs : List Char) :
    (lineStarts.tails cs).Pairwise fun line line' => line'.length < line.length := by
  induction cs with
  | nil => exact .nil
  | cons c cs ih =>
      rw [lineStarts.tails]
      split
      · refine List.pairwise_cons.mpr ⟨fun line hline => ?_, ih⟩
        obtain ⟨before, d, hcs, -⟩ := mem_tails_iff.mp hline
        simp only [hcs, List.length_append, List.length_cons]
        omega
      · exact ih

theorem pairwise_lineStarts (contents : String) :
    (lineStarts contents).Pairwise fun line line' => line'.length < line.length := by
  refine List.pairwise_cons.mpr ⟨fun line hline => ?_, pairwise_tails _⟩
  obtain ⟨before, d, hcs, -⟩ := mem_tails_iff.mp hline
  simp only [hcs, List.length_append, List.length_cons]
  omega

/-! ### Places -/

/-- A place where a name stands before an `=`, at the start of a line but for white space. -/
structure Place (name contents : String) where
  before : List Char
  gap : List Char
  inner : List Char
  rest : List Char
  text : contents.toList = before ++ (gap ++ name.toList ++ (inner ++ '=' :: rest))
  atLineStart : AtLineStart before
  white_gap : ∀ c ∈ gap, isWhitespace c = true
  white_inner : ∀ c ∈ inner, isWhitespace c = true

theorem afterText_eq_some_iff {text : String} {cs rest : List Char} :
    afterText text cs = some rest ↔ cs = text.toList ++ rest := by
  unfold afterText
  constructor
  · intro h
    split at h <;> rename_i hprefix
    · obtain ⟨tail, rfl⟩ := List.isPrefixOf_iff_prefix.mp hprefix
      cases h
      rw [← String.length_toList, List.drop_left]
    · cases h
  · rintro rfl
    rw [if_pos (List.isPrefixOf_iff_prefix.mpr (List.prefix_append _ _)), ← String.length_toList,
      List.drop_left]

variable {name contents : String}

theorem afterAssignment_eq_some_iff (hname : IsName name) {line rest : List Char} :
    afterAssignment name line = some rest ↔
      ∃ gap inner, line = gap ++ name.toList ++ (inner ++ '=' :: rest) ∧
        (∀ c ∈ gap, isWhitespace c = true) ∧ ∀ c ∈ inner, isWhitespace c = true := by
  unfold afterAssignment
  constructor
  · intro h
    split at h
    · cases h
    · rename_i after hafter
      split at h
      · rename_i value hvalue
        cases h
        refine ⟨line.takeWhile isWhitespace, after.takeWhile isWhitespace, ?_,
          fun c hc => List.mem_takeWhile_imp hc, fun c hc => List.mem_takeWhile_imp hc⟩
        rw [← hvalue, List.takeWhile_append_dropWhile, List.append_assoc,
          ← afterText_eq_some_iff.mp hafter, List.takeWhile_append_dropWhile]
      · cases h
  · rintro ⟨gap, inner, rfl, hgap, hinner⟩
    have hafter : afterText name (name.toList ++ (inner ++ '=' :: rest)) =
        some (inner ++ '=' :: rest) := afterText_eq_some_iff.mpr rfl
    rw [dropWhile_gap hgap hname, hafter]
    dsimp only
    rw [dropWhile_equals hinner]
    rfl

/-- The line starts that an assignment follows are the places. -/
theorem exists_place_iff (hname : IsName name) {line rest : List Char} :
    (line ∈ lineStarts contents ∧ afterAssignment name line = some rest) ↔
      ∃ p : Place name contents, contents.toList = p.before ++ line ∧ p.rest = rest := by
  rw [mem_lineStarts_iff, afterAssignment_eq_some_iff hname]
  constructor
  · rintro ⟨⟨before, hcs, hstart⟩, gap, inner, rfl, hgap, hinner⟩
    exact ⟨⟨before, gap, inner, rest, hcs, hstart, hgap, hinner⟩, hcs, rfl⟩
  · rintro ⟨p, hcs, rfl⟩
    exact ⟨⟨p.before, hcs, p.atLineStart⟩, p.gap, p.inner,
      List.append_cancel_left (hcs.symm.trans p.text), p.white_gap, p.white_inner⟩

/-! ### What is written -/

/-- What the group takes after an `=`: the first line that is not blank, trimmed, wherever it is;
where white space is all there is, the last character of it that ends no line. -/
inductive Written : List Char → String → Prop
  | line {gap : List Char} {value : String} {trail after : List Char} :
      (∀ c ∈ gap, isWhitespace c = true) → value ≠ "" → IsTrimmed value → isOneLine value = true →
      (∀ c ∈ trail, isWhitespace c = true ∧ isLineTerminator c = false) →
      (∀ c ∈ after.head?, isLineTerminator c = true) →
      Written (gap ++ (value.toList ++ trail ++ after)) value
  | space {gap : List Char} {c : Char} {ends : List Char} :
      (∀ d ∈ gap, isWhitespace d = true) → isWhitespace c = true → isLineTerminator c = false →
      (∀ d ∈ ends, isLineTerminator d = true) →
      Written (gap ++ c :: ends) (String.singleton c)

theorem captureValue_of_written {rest : List Char} {value : String} (h : Written rest value) :
    captureValue rest = some value := by
  unfold captureValue
  cases h with
  | @line gap _ trail after hgap hne htrimmed hone htrail hafter =>
      have hstop : ((value.toList ++ trail) ++ after).takeWhile (fun c => !isLineTerminator c) =
          value.toList ++ trail := by
        have hnone : after.takeWhile (fun c => !isLineTerminator c) = [] := by
          cases after with
          | nil => rfl
          | cons c cs => simp [hafter c rfl]
        rw [List.takeWhile_append_of_pos, hnone, List.append_nil]
        intro c hc
        rcases List.mem_append.mp hc with hc | hc
        · simp [isOneLine_iff.mp hone c hc]
        · simp [(htrail c hc).2]
      have hlist : value.toList ≠ [] := fun h => hne (String.toList_inj.mp h)
      have hfront : (value.toList ++ trail ++ after).dropWhile isWhitespace =
          value.toList ++ trail ++ after := by
        cases hv : value.toList with
        | nil => exact absurd hv hlist
        | cons c cs => simp [htrimmed.1 c (by simp [hv])]
      have hback : (value.toList ++ trail).rdropWhile isWhitespace = value.toList := by
        have htrailing : trail.reverse.dropWhile isWhitespace = [] :=
          List.dropWhile_eq_nil_iff.mpr fun c hc => (htrail c (List.mem_reverse.mp hc)).1
        have hself : value.toList.rdropWhile isWhitespace = value.toList := by
          refine List.rdropWhile_eq_self_iff.mpr fun hl => ?_
          rw [htrimmed.2 _ (List.getLast_mem_getLast? hl)]
          decide
        rw [List.rdropWhile, List.reverse_append, List.dropWhile_append, htrailing]
        exact hself
      have hstart : (gap ++ (value.toList ++ trail ++ after)).dropWhile isWhitespace =
          value.toList ++ trail ++ after := by
        rw [List.dropWhile_append_of_pos hgap, hfront]
      split
      · rename_i hnil
        rw [hstart] at hnil
        simp [hlist] at hnil
      · rw [hstart, hstop, hback, String.ofList_toList]
  | @space gap c ends hgap hc hplain hends =>
      have hwhite : (gap ++ c :: ends).dropWhile isWhitespace = [] := by
        refine List.dropWhile_eq_nil_iff.mpr fun d hd => ?_
        rcases List.mem_append.mp hd with hd | hd
        · exact hgap d hd
        · rcases List.mem_cons.mp hd with rfl | hd
          · exact hc
          · exact isWhitespace_of_isLineTerminator (hends d hd)
      have hfilter : ends.filter (fun d => !isLineTerminator d) = [] :=
        List.filter_eq_nil_iff.mpr fun d hd => by simp [hends d hd]
      rw [hwhite]
      simp [List.filter_append, hplain, hfilter]

/-- After the last character that ends no line there are line ends alone. -/
theorem written_of_white {rest : List Char} {c : Char} (hall : ∀ d ∈ rest, isWhitespace d = true)
    (hlast : (rest.filter fun d => !isLineTerminator d).getLast? = some c) :
    Written rest (String.singleton c) := by
  obtain ⟨front, hfront⟩ := List.getLast?_eq_some_iff.mp hlast
  obtain ⟨gap, ends, rfl, hgap, hends⟩ := List.filter_eq_append_iff.mp hfront
  obtain ⟨gap', ends', rfl, -, hc, hends'⟩ := List.filter_eq_cons_iff.mp hends
  rw [← List.append_assoc]
  refine .space ?_ (hall c (by simp)) (by simpa using hc) ?_
  · exact fun d hd => hall d (by rcases List.mem_append.mp hd with hd | hd <;> simp [hd])
  · intro d hd
    have := List.filter_eq_nil_iff.mp hends' d hd
    simpa using this

/-- The line begins with what is not white space, so its end alone is trimmed. -/
theorem written_of_line {rest cs : List Char} {c : Char}
    (hfront : rest.dropWhile isWhitespace = c :: cs) :
    Written rest (String.ofList
      (((c :: cs).takeWhile fun d => !isLineTerminator d).rdropWhile isWhitespace)) := by
  have hc : isWhitespace c = false := by
    have := List.head?_dropWhile_not isWhitespace rest
    rw [hfront] at this
    simpa using this
  have hplain : isLineTerminator c = false := by
    by_contra hline
    rw [isWhitespace_of_isLineTerminator (by simpa using hline)] at hc
    cases hc
  set line := (c :: cs).takeWhile fun c => !isLineTerminator c with hline
  have hhead : line = c :: cs.takeWhile fun c => !isLineTerminator c := by
    simp [hline, hplain]
  have hvalue : String.ofList (line.rdropWhile isWhitespace) = trim (String.ofList line) := by
    rw [← String.toList_inj, toList_trim, String.toList_ofList, String.toList_ofList, hhead,
      List.dropWhile_cons, hc]
    rfl
  have hne : trim (String.ofList line) ≠ "" := by
    intro hempty
    have hwhite := trim_eq_empty_iff.mp hempty c (by simp [hhead])
    rw [hc] at hwhite
    cases hwhite
  have hone : isOneLine (String.ofList line) = true := by
    rw [isOneLine_iff, String.toList_ofList]
    intro d hd
    simpa using List.mem_takeWhile_imp hd
  have htext : rest = rest.takeWhile isWhitespace ++
      ((trim (String.ofList line)).toList ++ line.rtakeWhile isWhitespace ++
        (c :: cs).dropWhile fun c => !isLineTerminator c) := by
    rw [← hvalue, String.toList_ofList, List.rdropWhile_append_rtakeWhile, hline,
      List.takeWhile_append_dropWhile, ← hfront, List.takeWhile_append_dropWhile]
  rw [hvalue, htext]
  refine .line (fun d hd => List.mem_takeWhile_imp hd) hne (isTrimmed_trim _)
    (isOneLine_trim hone) ?_ ?_
  · intro d hd
    have hmem := (List.rtakeWhile_suffix isWhitespace line).subset hd
    exact ⟨List.mem_rtakeWhile_imp hd, by simpa using List.mem_takeWhile_imp hmem⟩
  · intro d hd
    have := List.head?_dropWhile_not (fun c => !isLineTerminator c) (c :: cs)
    rw [Option.mem_def.mp hd] at this
    simpa using this

theorem written_of_captureValue {rest : List Char} {value : String}
    (h : captureValue rest = some value) : Written rest value := by
  unfold captureValue at h
  split at h
  · rename_i hwhite
    obtain ⟨c, hlast, rfl⟩ := Option.map_eq_some_iff.mp h
    exact written_of_white (List.dropWhile_eq_nil_iff.mp hwhite) hlast
  · rename_i hsome
    cases h
    obtain ⟨c, cs, hfront⟩ := List.exists_cons_of_ne_nil hsome
    rw [hfront]
    exact written_of_line hfront

theorem captureValue_eq_some_iff {rest : List Char} {value : String} :
    captureValue rest = some value ↔ Written rest value :=
  ⟨written_of_captureValue, captureValue_of_written⟩

/-- The value that is written first: of the places where something is written, none begins before
its. -/
def FirstWritten (name contents value : String) : Prop :=
  ∃ p : Place name contents, Written p.rest value ∧
    ∀ (q : Place name contents) (other : String), Written q.rest other →
      p.before.length ≤ q.before.length

/-- The search from line start to line start finds the value written first. -/
theorem findSome?_eq_some_iff (hname : IsName name) {value : String} :
    ((lineStarts contents).findSome? fun line => (afterAssignment name line).bind captureValue) =
      some value ↔ FirstWritten name contents value := by
  have hfound : ∀ {line value}, (afterAssignment name line).bind captureValue = some value ↔
      ∃ rest, afterAssignment name line = some rest ∧ Written rest value := by
    intro line value
    rw [Option.bind_eq_some_iff]
    exact exists_congr fun rest => and_congr_right fun _ => captureValue_eq_some_iff
  have hlength : ∀ {before before' line line' : List Char}, contents.toList = before ++ line →
      contents.toList = before' ++ line' →
      (line'.length ≤ line.length ↔ before.length ≤ before'.length) := by
    intro before before' line line' h h'
    have hsum := congrArg List.length h
    have hsum' := congrArg List.length h'
    rw [List.length_append] at hsum hsum'
    omega
  constructor
  · intro h
    obtain ⟨earlier, line, later, hlines, hline, hearlier⟩ := List.findSome?_eq_some_iff.mp h
    obtain ⟨rest, hrest, hwritten⟩ := hfound.mp hline
    have hmem : line ∈ lineStarts contents := by simp [hlines]
    obtain ⟨p, hp, rfl⟩ := (exists_place_iff hname).mp ⟨hmem, hrest⟩
    refine ⟨p, hwritten, fun q other hother => ?_⟩
    obtain ⟨hq, hqrest⟩ := (exists_place_iff hname).mpr ⟨q, q.text, rfl⟩
    refine (hlength hp q.text).mp ?_
    have hsorted := pairwise_lineStarts contents
    rw [hlines] at hq hsorted
    rcases List.mem_append.mp hq with hq | hq
    · have hnone := hearlier _ hq
      rw [hfound.mpr ⟨q.rest, hqrest, hother⟩] at hnone
      cases hnone
    · rcases List.mem_cons.mp hq with hq | hq
      · rw [hq]
      · have := (List.pairwise_cons.mp (List.pairwise_append.mp hsorted).2.1).1 _ hq
        omega
  · rintro ⟨p, hwritten, hfirst⟩
    obtain ⟨hp, hrest⟩ := (exists_place_iff hname).mpr ⟨p, p.text, rfl⟩
    have hline := hfound.mpr ⟨p.rest, hrest, hwritten⟩
    obtain ⟨earlier, later, hlines⟩ := List.append_of_mem hp
    refine List.findSome?_eq_some_iff.mpr ⟨earlier, _, later, hlines, hline, fun line hmem => ?_⟩
    by_contra hsome
    obtain ⟨other, hother⟩ := Option.ne_none_iff_exists'.mp hsome
    obtain ⟨rest, hrest', hwritten'⟩ := hfound.mp hother
    have hline' : line ∈ lineStarts contents := by simp [hlines, hmem]
    obtain ⟨q, hq, rfl⟩ := (exists_place_iff hname).mp ⟨hline', hrest'⟩
    -- The line that begins earlier is the longer one.
    have hle := (hlength p.text hq).mpr (hfirst q other hwritten')
    have hsorted := pairwise_lineStarts contents
    rw [hlines] at hsorted
    have := (List.pairwise_append.mp hsorted).2.2 line hmem _ List.mem_cons_self
    omega

theorem hasTenant_iff {locale : Locale} {tenantId : String}
    (hname : IsName ("TENANT_TOKEN_" ++ locale.toUpperCase tenantId)) :
    hasTenant locale contents tenantId = true ↔
      Nonempty (Place ("TENANT_TOKEN_" ++ locale.toUpperCase tenantId) contents) := by
  rw [hasTenant, List.any_eq_true]
  constructor
  · rintro ⟨line, hline, hsome⟩
    obtain ⟨rest, hrest⟩ := Option.isSome_iff_exists.mp hsome
    obtain ⟨p, -⟩ := (exists_place_iff hname).mp ⟨hline, hrest⟩
    exact ⟨p⟩
  · rintro ⟨p⟩
    obtain ⟨hline, hrest⟩ := (exists_place_iff hname).mpr ⟨p, p.text, rfl⟩
    exact ⟨_, hline, by rw [hrest]; rfl⟩

end Provisioning

end VcalmStatus
