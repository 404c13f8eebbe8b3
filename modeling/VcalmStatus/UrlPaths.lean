import VcalmStatus.Platform

/-!
What the URL standard says of a text that encoded components are appended to. Appended to a text
without query and fragment they are segments of the path; after a query or a fragment they are part
of it, and the path stays what it is; dot segments are no part of a path of two segments.
-/

namespace VcalmStatus

open Js

/-- The text has no query and no fragment, whatever else it is. -/
def IsBare (base : String) : Prop := ∀ c ∈ base.toList, c ≠ '?' ∧ c ≠ '#'

theorem isBare_iff {base : String} :
    IsBare base ↔ base.toList.all (fun c => c != '?' && c != '#') = true := by
  simp [IsBare]

instance (base : String) : Decidable (IsBare base) := decidable_of_iff _ isBare_iff.symm

theorem IsBare.append {base rest : String} (hbase : IsBare base) (hrest : IsBare rest) :
    IsBare (base ++ rest) := by
  intro c hc
  rw [String.toList_append, List.mem_append] at hc
  exact hc.elim (hbase c) (hrest c)

/-- How a URL parser treats the paths it is given. -/
structure UrlPaths (platform : Platform) : Prop where
  append : ∀ {base a b : String} {segments : List String}, IsBare base → a ∉ dotSegments →
    b ∉ dotSegments →
    ((∃ u, platform.parseUrl (base ++ "/" ++ encodeURIComponent a) = some u ∧
        u.segments = segments ++ [encodeURIComponent a]) ↔
      ∃ u, platform.parseUrl (base ++ "/" ++ encodeURIComponent a ++ "/" ++ encodeURIComponent b) =
          some u ∧ u.segments = segments ++ [encodeURIComponent a, encodeURIComponent b])
  dots : ∀ {base a dot : String} {u : Url} {x y : String}, IsBare base → a ∉ dotSegments →
    dot = "." ∨ dot = ".." →
    platform.parseUrl (base ++ "/" ++ encodeURIComponent a ++ "/" ++ encodeURIComponent dot) =
      some u → u.segments = [x, y] → decodeURIComponent y ≠ some dot
  query : ∀ {base : String} (rest : String), ¬IsBare base →
    (platform.parseUrl (base ++ rest)).map (·.pathname) =
      (platform.parseUrl base).map (·.pathname)

end VcalmStatus
