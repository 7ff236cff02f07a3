import HindiScript.Bundle.Build
import HindiScript.Proofs.Text.Alignment

/-!
# Canonical paths

A build knows a file by its canonical path, so a path that is canonical already has to stay as it is. A path is walked
from the root: an empty part and `.` stay where they are, `..` goes up, and every other part goes down
(`Path.place`). The canonical path spells the place that the walk ends at, behind one or two slashes
(`Path.toList_normalize`), and a path of this form is left alone (`Path.IsCanonical.normalize_eq`). An import leads to a
canonical path also where the extension is put behind it (`Bundle.canonical_keys`).
-/

namespace HindiScript

namespace Path

/-! ## Walking along a path -/

/-- The part is neither empty nor `.` nor `..`. -/
def IsName (part : List Char) : Prop := part ≠ [] ∧ part ≠ ['.'] ∧ part ≠ ['.', '.']

/-- The names from the root to where one more `part` leads. -/
def follow (here : List (List Char)) (part : List Char) : List (List Char) :=
  if part = [] ∨ part = ['.'] then here
  else if part = ['.', '.'] then here.dropLast
  else here ++ [part]

/-- The names from the root to where `path` leads: `follow`, part by part. -/
def place (path : String) : List (List Char) := (Text.pieces '/' path.toList).foldl follow []

theorem follow_of_isName {part : List Char} (h : IsName part) (here : List (List Char)) :
    follow here part = here ++ [part] := by
  rw [follow, if_neg (not_or.2 ⟨h.1, h.2.1⟩), if_neg h.2.2]

theorem foldl_follow_of_isName {parts : List (List Char)} (h : ∀ part ∈ parts, IsName part)
    (here : List (List Char)) : parts.foldl follow here = here ++ parts := by
  induction parts generalizing here with
  | nil => exact (List.append_nil here).symm
  | cons part rest ih =>
    rw [List.foldl_cons, follow_of_isName (h part List.mem_cons_self),
      ih fun p hp => h p (List.mem_cons_of_mem _ hp), List.append_assoc, List.singleton_append]

/-- Parts that can stand in a canonical path. -/
def Spelled (parts : List (List Char)) : Prop := ∀ part ∈ parts, IsName part ∧ '/' ∉ part

theorem Spelled.follow {here : List (List Char)} (h : Spelled here) {part : List Char} (hpart : '/' ∉ part) :
    Spelled (follow here part) := by
  unfold Path.follow
  split
  · exact h
  · next hdot =>
    split
    · exact fun p hp => h p (List.dropLast_subset here hp)
    · next hup =>
      intro p hp
      rcases List.mem_append.1 hp with hp | hp
      · exact h p hp
      · obtain rfl := List.mem_singleton.1 hp
        exact ⟨⟨(not_or.1 hdot).1, (not_or.1 hdot).2, hup⟩, hpart⟩

theorem Spelled.foldl_follow {here : List (List Char)} (h : Spelled here) {parts : List (List Char)}
    (hparts : ∀ part ∈ parts, '/' ∉ part) : Spelled (parts.foldl Path.follow here) := by
  induction parts generalizing here with
  | nil => exact h
  | cons part rest ih =>
    exact ih (h.follow (hparts part List.mem_cons_self)) fun p hp => hparts p (List.mem_cons_of_mem _ hp)

theorem spelled_place (path : String) : Spelled (place path) :=
  Spelled.foldl_follow (fun _ h => absurd h List.not_mem_nil) fun _ => Text.not_mem_of_mem_pieces

/-- `addPart` gathers the parts with the last one first; at the root there is nothing to go up from. -/
theorem reverse_addPart {parts : List (List Char)} (h : Spelled parts.reverse) (part : List Char) :
    (addPart true parts part).reverse = follow parts.reverse part := by
  unfold addPart follow
  simp only [Bool.or_eq_true, decide_eq_true_eq]
  split
  · rfl
  · split
    · cases parts with
      | nil => rfl
      | cons last before =>
        have hlast : last ≠ ['.', '.'] := (h last (by simp)).1.2.2
        simp [hlast]
    · rw [List.reverse_cons]

theorem reverse_foldl_addPart {parts done : List (List Char)} (h : Spelled done.reverse)
    (hparts : ∀ part ∈ parts, '/' ∉ part) :
    (parts.foldl (addPart true) done).reverse = parts.foldl follow done.reverse := by
  induction parts generalizing done with
  | nil => rfl
  | cons part rest ih =>
    have hstep := reverse_addPart h part
    have hnext : Spelled (addPart true done part).reverse := hstep ▸ h.follow (hparts part List.mem_cons_self)
    rw [List.foldl_cons, List.foldl_cons, ih hnext fun p hp => hparts p (List.mem_cons_of_mem _ hp), hstep]

/-! ## The text of a canonical path -/

def IsRoot (root : List Char) : Prop := root = ['/'] ∨ root = ['/', '/']

theorem isRoot_rootSlashes {cs : List Char} (h : cs.head? = some '/') : IsRoot (rootSlashes cs) := by
  unfold rootSlashes
  split
  · exact .inl rfl
  · exact .inr rfl
  · exact .inl rfl
  · next hne =>
    obtain ⟨rest, rfl⟩ := List.head?_eq_some_iff.1 h
    exact absurd rfl (hne rest)

/-- Normalising an absolute path spells the `place` it leads to. -/
theorem toList_normalize {path : String} (h : isAbsolute path = true) :
    (normalize path).toList = rootSlashes path.toList ++ ['/'].intercalate (place path) := by
  have hroot : rootSlashes path.toList ≠ [] := by
    rcases isRoot_rootSlashes (of_decide_eq_true h) with hr | hr <;> simp [hr]
  have hparts : ((Text.pieces '/' path.toList).foldl (addPart true) []).reverse = place path :=
    reverse_foldl_addPart (fun _ h => absurd h List.not_mem_nil) fun _ => Text.not_mem_of_mem_pieces
  have hempty : (rootSlashes path.toList).isEmpty = false := List.isEmpty_eq_false_iff.2 hroot
  have hresult : (rootSlashes path.toList ++ ['/'].intercalate (place path)).isEmpty = false := by simp [hroot]
  simp only [normalize, hempty, Bool.not_false, hparts, hresult, Bool.false_eq_true, if_false, String.toList_ofList]

theorem Spelled.pieces_intercalate {parts : List (List Char)} (h : Spelled parts) (hne : parts ≠ []) :
    Text.pieces '/' (['/'].intercalate parts) = parts :=
  Text.pieces_intercalate hne fun part hpart => (h part hpart).2

/-- What stands behind the slashes at the start of a canonical path: nothing, or names with a slash between each two. -/
def Clean (tail : List Char) : Prop := tail ≠ [] → ∀ part ∈ Text.pieces '/' tail, IsName part

theorem clean_intercalate {parts : List (List Char)} (h : Spelled parts) : Clean (['/'].intercalate parts) := by
  by_cases hne : parts = []
  · subst hne
    exact fun htail => absurd rfl htail
  · intro _ part hpart
    rw [h.pieces_intercalate hne] at hpart
    exact (h part hpart).1

namespace Clean

variable {tail : List Char}

theorem head?_ne (h : Clean tail) : tail.head? ≠ some '/' := by
  intro hhead
  obtain ⟨rest, rfl⟩ := List.head?_eq_some_iff.1 hhead
  have hempty : [] ∈ Text.pieces '/' ('/' :: rest) := by
    rw [Text.pieces, if_pos rfl]
    exact List.mem_cons_self
  exact (h (List.cons_ne_nil _ _) [] hempty).1 rfl

theorem getLast?_ne (h : Clean tail) : tail.getLast? ≠ some '/' := by
  intro hlast
  obtain ⟨front, rfl⟩ := List.getLast?_eq_some_iff.1 hlast
  have hempty : [] ∈ Text.pieces '/' (front ++ ['/']) := by
    rw [Text.pieces_append]
    exact List.mem_append_right _ List.mem_cons_self
  exact (h (by simp) [] hempty).1 rfl

/-- The walk along a `Clean` tail goes down only, and its text comes back. -/
theorem intercalate_foldl_follow (h : Clean tail) :
    ['/'].intercalate ((Text.pieces '/' tail).foldl follow []) = tail := by
  by_cases hne : tail = []
  · subst hne
    rfl
  · rw [foldl_follow_of_isName (h hne), List.nil_append, Text.intercalate_pieces]

end Clean

namespace IsRoot

variable {root tail : List Char}

theorem rootSlashes_append (hroot : IsRoot root) (htail : tail.head? ≠ some '/') :
    rootSlashes (root ++ tail) = root := by
  cases tail with
  | nil => rcases hroot with rfl | rfl <;> rfl
  | cons c rest =>
    have hc : c ≠ '/' := fun hc => htail (congrArg some hc)
    rcases hroot with rfl | rfl <;> simp [rootSlashes, hc]

theorem foldl_follow_append (hroot : IsRoot root) (tail : List Char) :
    (Text.pieces '/' (root ++ tail)).foldl follow [] = (Text.pieces '/' tail).foldl follow [] := by
  rcases hroot with rfl | rfl <;> rfl

end IsRoot

/-- The path is absolute. Behind the one or two slashes at its start it has no empty, `.` or `..` part, and it ends in a
slash only if it is nothing but these. -/
structure IsCanonical (path : String) : Prop where
  absolute : isAbsolute path = true
  parts : ∃ root tail, path.toList = root ++ tail ∧ IsRoot root ∧ Clean tail
  last : path.toList.getLast? = some '/' → path = "/" ∨ path = "//"

theorem isCanonical_of_clean {path : String} {root tail : List Char} (h : path.toList = root ++ tail)
    (hroot : IsRoot root) (htail : Clean tail) : IsCanonical path := by
  refine ⟨?_, ⟨root, tail, h, hroot, htail⟩, fun hlast => ?_⟩
  · rw [isAbsolute, h]
    rcases hroot with rfl | rfl <;> rfl
  · have hnil : tail = [] := by
      by_contra hne
      rw [h, List.getLast?_append_of_ne_nil _ hne] at hlast
      exact htail.getLast?_ne hlast
    rw [hnil, List.append_nil] at h
    exact hroot.imp (fun hr => String.toList_inj.1 (h.trans hr)) fun hr => String.toList_inj.1 (h.trans hr)

theorem isCanonical_normalize {path : String} (h : isAbsolute path = true) : IsCanonical (normalize path) :=
  isCanonical_of_clean (toList_normalize h) (isRoot_rootSlashes (of_decide_eq_true h))
    (clean_intercalate (spelled_place path))

/-- A canonical path is left alone. -/
theorem IsCanonical.normalize_eq {path : String} (h : IsCanonical path) : normalize path = path := by
  obtain ⟨root, tail, hpath, hroot, htail⟩ := h.parts
  rw [← String.toList_inj, toList_normalize h.absolute, place, hpath, hroot.foldl_follow_append,
    htail.intercalate_foldl_follow, hroot.rootSlashes_append htail.head?_ne]

theorem foldl_follow_intercalate {parts : List (List Char)} (h : Spelled parts) :
    (Text.pieces '/' (['/'].intercalate parts)).foldl follow [] = parts := by
  by_cases hne : parts = []
  · subst hne
    rfl
  · rw [h.pieces_intercalate hne, foldl_follow_of_isName fun part hpart => (h part hpart).1, List.nil_append]

/-- The canonical path leads to where the path leads. -/
theorem place_normalize {path : String} (h : isAbsolute path = true) : place (normalize path) = place path := by
  rw [place, toList_normalize h, (isRoot_rootSlashes (of_decide_eq_true h)).foldl_follow_append,
    foldl_follow_intercalate (spelled_place path)]

/-! ## From a working directory -/

theorem isAbsolute_append {dir : String} (h : isAbsolute dir = true) (rest : String) :
    isAbsolute (dir ++ rest) = true := by
  have hhead : dir.toList.head? = some '/' := of_decide_eq_true h
  rw [isAbsolute, String.toList_append, List.head?_append, hhead]
  rfl

theorem isAbsolute_join {cwd : String} (h : isAbsolute cwd = true) (path : String) :
    isAbsolute (join cwd path) = true := by
  unfold join
  split
  · assumption
  · split
    · exact isAbsolute_append h path
    · exact isAbsolute_append (isAbsolute_append h "/") path

theorem join_of_isAbsolute {path : String} (h : isAbsolute path = true) (dir : String) : join dir path = path := by
  rw [join, if_pos h]

theorem isCanonical_canonical {cwd : String} (h : isAbsolute cwd = true) (path : String) :
    IsCanonical (canonical cwd path) :=
  isCanonical_normalize (isCanonical_normalize (isAbsolute_join h path)).absolute

theorem IsCanonical.canonical_eq {path : String} (h : IsCanonical path) (cwd : String) : canonical cwd path = path := by
  rw [canonical, join_of_isAbsolute h.absolute, h.normalize_eq, h.normalize_eq]

theorem place_canonical {cwd : String} (h : isAbsolute cwd = true) (path : String) :
    place (canonical cwd path) = place (join cwd path) := by
  have habsolute := isAbsolute_join h path
  rw [canonical, place_normalize (isCanonical_normalize habsolute).absolute, place_normalize habsolute]

/-! ## Extensions -/

/-- What is put behind a text without `sep` lengthens its last piece. -/
theorem exists_pieces_append {sep : Char} {more : List Char} (h : sep ∉ more) (cs : List Char) :
    ∃ front last, Text.pieces sep cs = front ++ [last] ∧ Text.pieces sep (cs ++ more) = front ++ [last ++ more] := by
  induction cs with
  | nil => exact ⟨[], [], rfl, Text.pieces_of_not_mem h⟩
  | cons c rest ih =>
    obtain ⟨front, last, hrest, hmore⟩ := ih
    by_cases hc : c = sep
    · refine ⟨[] :: front, last, ?_, ?_⟩
      · rw [Text.pieces, if_pos hc, hrest, List.cons_append]
      · rw [List.cons_append, Text.pieces, if_pos hc, hmore, List.cons_append]
    · cases front with
      | nil =>
        refine ⟨[], c :: last, ?_, ?_⟩
        · rw [Text.pieces, if_neg hc, hrest, List.nil_append, List.nil_append]
        · rw [List.cons_append, Text.pieces, if_neg hc, hmore, List.nil_append, List.nil_append, List.cons_append]
      | cons first front =>
        refine ⟨(c :: first) :: front, last, ?_, ?_⟩
        · rw [Text.pieces, if_neg hc, hrest, List.cons_append, List.cons_append]
        · rw [List.cons_append, Text.pieces, if_neg hc, hmore, List.cons_append, List.cons_append]

theorem isName_append {more : List Char} (h : 2 < more.length) (last : List Char) : IsName (last ++ more) := by
  refine ⟨?_, ?_, ?_⟩ <;>
  · intro he
    have := congrArg List.length he
    simp only [List.length_append, List.length_cons, List.length_nil] at this
    omega

theorem Clean.append {tail more : List Char} (h : Clean tail) (hslash : '/' ∉ more) (hlong : 2 < more.length) :
    Clean (tail ++ more) := by
  intro _ part hpart
  obtain ⟨front, last, htail, hmore⟩ := exists_pieces_append hslash tail
  rw [hmore] at hpart
  rcases List.mem_append.1 hpart with hfront | hlast
  · have hne : tail ≠ [] := by
      rintro rfl
      have hlength : front.length = 0 := by simpa [Text.pieces] using congrArg List.length htail
      rw [List.eq_nil_of_length_eq_zero hlength] at hfront
      exact List.not_mem_nil hfront
    exact h hne part (htail ▸ List.mem_append_left _ hfront)
  · obtain rfl := List.mem_singleton.1 hlast
    exact isName_append hlong last

theorem IsCanonical.append {path extension : String} (h : IsCanonical path) (hslash : '/' ∉ extension.toList)
    (hlong : 2 < extension.toList.length) : IsCanonical (path ++ extension) := by
  obtain ⟨root, tail, hpath, hroot, htail⟩ := h.parts
  refine isCanonical_of_clean ?_ hroot (htail.append hslash hlong)
  rw [String.toList_append, hpath, List.append_assoc]

end Path

namespace Bundle

/-- What `resolve` gives for an import is a file, under a canonical path. -/
theorem isCanonical_of_resolve {ws : Workspace} (hcwd : Path.isAbsolute ws.cwd = true) (hext : ws.extension = ".shar")
    {source : String} {importer : Option String} {r : String} (h : resolve ws source importer = some r) :
    ws.files.exists? r = true ∧ Path.IsCanonical r := by
  have hcandidate : Path.IsCanonical (candidate ws source importer) := Path.isCanonical_canonical hcwd _
  simp only [resolve] at h
  split at h
  · next hexists =>
    obtain rfl := Option.some.inj h
    exact ⟨hexists, hcandidate⟩
  · split at h
    · next hexists =>
      obtain rfl := Option.some.inj h
      exact ⟨hexists, hcandidate.append (hext ▸ by decide) (hext ▸ by decide)⟩
    · cases h

/-- Seen from an absolute working directory, `Path.canonical` gives a path of the canonical form (`IsCanonical`) that
is its own canonical path and leads to the same `Path.place`; every path of that form stays as it is. What `resolve`
gives for an import, with the extension of source files, is a file under a path that stays as it is. -/
theorem canonical_keys (ws : Workspace) (hcwd : Path.isAbsolute ws.cwd = true) :
    (∀ path, Path.IsCanonical (Path.canonical ws.cwd path) ∧
      Path.canonical ws.cwd (Path.canonical ws.cwd path) = Path.canonical ws.cwd path ∧
      Path.place (Path.canonical ws.cwd path) = Path.place (Path.join ws.cwd path) ∧
      (Path.IsCanonical path → Path.canonical ws.cwd path = path)) ∧
    (ws.extension = ".shar" → ∀ source importer r, resolve ws source importer = some r →
      ws.files.exists? r = true ∧ Path.canonical ws.cwd r = r) := by
  refine ⟨fun path => ?_, fun hext source importer r h => ?_⟩
  · have hcanonical := Path.isCanonical_canonical hcwd path
    exact ⟨hcanonical, hcanonical.canonical_eq ws.cwd, Path.place_canonical hcwd path, fun h => h.canonical_eq ws.cwd⟩
  · obtain ⟨hexists, hcanonical⟩ := isCanonical_of_resolve hcwd hext h
    exact ⟨hexists, hcanonical.canonical_eq ws.cwd⟩

/-- A module beside the program, both directly under a root of two slashes. -/
def twoSlashes : Workspace where
  files := { contents := .ofList [("//lib.shar", .text "ye x = 1"), ("//main.shar", .text "ye y = 2")] }
  cwd := "//home/../home//me/"

theorem canonical_keys_twoSlashes :
    Path.isAbsolute twoSlashes.cwd = true ∧ Path.canonical twoSlashes.cwd ".././//../a/b/.." = "//a" ∧
      Path.canonical twoSlashes.cwd "///../x" = "/x" ∧ Path.canonical twoSlashes.cwd "../../.." = "//" ∧
      Path.IsCanonical "//a" ∧ Path.canonical twoSlashes.cwd "//a" = "//a" ∧
      resolve twoSlashes "./dir/../lib" (some "//main.shar") = some "//lib.shar" ∧
      Path.canonical twoSlashes.cwd "//lib.shar" = "//lib.shar" := by
  have habsolute : Path.isAbsolute twoSlashes.cwd = true := by decide +kernel
  have hpath : Path.canonical twoSlashes.cwd ".././//../a/b/.." = "//a" := by decide +kernel
  have hresolve : resolve twoSlashes "./dir/../lib" (some "//main.shar") = some "//lib.shar" := by decide +kernel
  obtain ⟨hcanonical, hresolved⟩ := canonical_keys twoSlashes habsolute
  have hform := (hcanonical ".././//../a/b/..").1
  have hagain := (hcanonical ".././//../a/b/..").2.1
  rw [hpath] at hform hagain
  exact ⟨habsolute, hpath, by decide +kernel, by decide +kernel, hform, hagain, hresolve,
    (hresolved rfl _ _ _ hresolve).2⟩

end Bundle

end HindiScript
