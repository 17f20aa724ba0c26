import EntityTypings.Files.Tree
import Mathlib.Data.List.Induction
import Mathlib.Data.List.TakeWhile

/-!
# Names of files

The name of the file that a path leads to is that of its place (`getLast?_of_locate`), so two paths
that lead to one place by a step down have the same name and the same extension
(`extension?_eq_of_locate`). An extension that is added to a path is the extension of the new path
(`extension?_of_addExtension?`).
-/

namespace EntityTypings

/-! ### Parts between separators -/

section

variable {α : Type} [DecidableEq α] {separator : α}

theorem partsBetween_append {part : List α} (h : separator ∉ part) (rest : List α) :
    partsBetween separator (part ++ separator :: rest) = part :: partsBetween separator rest := by
  induction part with
  | nil =>
    obtain ⟨first, others, hparts⟩ :=
      List.exists_cons_of_ne_nil (partsBetween_ne_nil separator rest)
    simp [partsBetween, hparts]
  | cons c part ih =>
    rw [List.mem_cons, not_or] at h
    rw [List.cons_append, partsBetween, ih h.2]
    simp [Ne.symm h.1]

/-- Parts that are put together with separators are the parts between these. -/
theorem partsBetween_intercalate {parts : List (List α)} (hne : parts ≠ [])
    (h : ∀ part ∈ parts, separator ∉ part) :
    partsBetween separator ([separator].intercalate parts) = parts := by
  induction parts with
  | nil => exact absurd rfl hne
  | cons part parts ih =>
    have hpart := h part List.mem_cons_self
    cases parts with
    | nil =>
      rw [List.intercalate_singleton]
      exact partsBetween_of_not_mem hpart
    | cons next parts =>
      have hlater := ih (List.cons_ne_nil _ _) fun p hp => h p (List.mem_cons_of_mem _ hp)
      rw [List.intercalate_cons_cons, List.append_assoc, List.singleton_append,
        partsBetween_append hpart, hlater]

/-- No part has a separator in it. -/
theorem not_mem_of_mem_partsBetween {cs part : List α} (h : part ∈ partsBetween separator cs) :
    separator ∉ part := by
  induction cs generalizing part with
  | nil =>
    rw [partsBetween, List.mem_singleton] at h
    rw [h]
    exact List.not_mem_nil
  | cons c cs ih =>
    obtain ⟨first, others, hparts⟩ :=
      List.exists_cons_of_ne_nil (partsBetween_ne_nil separator cs)
    simp only [hparts, List.mem_cons] at ih
    simp only [partsBetween, hparts] at h
    split at h
    · rcases List.mem_cons.1 h with rfl | h
      · exact List.not_mem_nil
      · exact ih (List.mem_cons.1 h)
    · rename_i hc
      rcases List.mem_cons.1 h with rfl | h
      · rw [List.mem_cons, not_or]
        exact ⟨Ne.symm hc, ih (.inl rfl)⟩
      · exact ih (.inr h)

omit [DecidableEq α] in
/-- What follows parts that are put together belongs to the last one. -/
theorem intercalate_concat_append (separators : List α) (parts : List (List α))
    (last rest : List α) :
    separators.intercalate (parts ++ [last]) ++ rest =
      separators.intercalate (parts ++ [last ++ rest]) := by
  induction parts with
  | nil => simp
  | cons part parts ih =>
    cases parts with
    | nil => simp [List.intercalate_cons_cons]
    | cons next parts =>
      simp only [List.cons_append, List.intercalate_cons_cons] at ih ⊢
      rw [List.append_assoc, ih]

end

/-! ### The name of a file -/

namespace Path

variable {path name : String}

/-- The name of a file is the last step, and it goes down. -/
theorem fileName?_eq_some_iff :
    fileName? path = some name ↔ (steps path).getLast? = some name ∧ name ≠ ".." := by
  simp [fileName?]

theorem extension?_congr {other : String} (h : fileName? path = fileName? other) :
    extension? path = extension? other := by
  rw [extension?, extension?, h]

theorem isSome_fileName? {extension : String} (h : extension? path = some extension) :
    (fileName? path).isSome = true := by
  cases hname : fileName? path with
  | none => simp [extension?, hname] at h
  | some name => rfl

/-- The segments of a path up to its name are put together again. -/
theorem exists_trimmed (h : fileName? path = some name) :
    ∃ before : List String, trimmed path = "/".intercalate (before ++ [name]) ∧
      ∀ segment ∈ before ++ [name], '/' ∉ segment.toList := by
  obtain ⟨hlast, -⟩ := fileName?_eq_some_iff.1 h
  have hhead : ((segments path).reverse.dropWhile isIdle).head? = some name := by
    rw [steps, List.getLast?_eq_head?_reverse, ← List.filter_reverse, List.head?_filter,
      List.find?_eq_head?_dropWhile_not] at hlast
    simpa using hlast
  obtain ⟨before, hparts⟩ := List.head?_eq_some_iff.1 hhead
  refine ⟨before.reverse, by rw [trimmed, hparts, List.reverse_cons], fun segment hsegment => ?_⟩
  have hmem : segment ∈ (segments path).reverse.dropWhile isIdle := by
    rw [hparts]
    simpa [or_comm] using hsegment
  have hsegments := List.mem_reverse.1 ((List.dropWhile_sublist _).subset hmem)
  obtain ⟨part, hpart, rfl⟩ := List.mem_map.1 hsegments
  rw [String.toList_ofList]
  exact not_mem_of_mem_partsBetween hpart

/-- A name is not empty. -/
theorem ne_empty_of_fileName? (h : fileName? path = some name) : name ≠ "" := by
  have hmem := List.mem_of_getLast? (fileName?_eq_some_iff.1 h).1
  rintro rfl
  simp [steps, isIdle] at hmem

variable {extension path' : String}

/-- A path with an added extension has the name with the extension. -/
theorem fileName?_of_addExtension? (hslash : '/' ∉ extension.toList) (hne : extension ≠ "")
    (h : addExtension? path extension = some path') :
    ∃ name, name ≠ "" ∧ fileName? path' = some (name ++ "." ++ extension) := by
  obtain ⟨name, hname, rfl⟩ := Option.map_eq_some_iff.1 h
  obtain ⟨before, htrimmed, hsegments⟩ := exists_trimmed hname
  have hnonempty := ne_empty_of_fileName? hname
  refine ⟨name, hnonempty, ?_⟩
  have hlength : 3 ≤ (name ++ "." ++ extension).toList.length := by
    have hpos {s : String} (hs : s ≠ "") : 0 < s.toList.length :=
      List.length_pos_iff.2 fun hnil => hs (String.toList_eq_nil_iff.1 hnil)
    have hname' := hpos hnonempty
    have hextension := hpos hne
    simp only [String.toList_append, List.length_append]
    have hdot : ".".toList.length = 1 := by decide
    omega
  have hchars : (trimmed path ++ "." ++ extension).toList =
      ['/'].intercalate (before.map String.toList ++ [(name ++ "." ++ extension).toList]) := by
    have hslashes : "/".toList = ['/'] := by decide
    rw [htrimmed, String.append_assoc, String.toList_append, String.toList_intercalate,
      List.map_append, List.map_singleton, intercalate_concat_append, hslashes,
      ← String.toList_append, ← String.append_assoc]
  have hparts : segments (trimmed path ++ "." ++ extension) =
      before ++ [name ++ "." ++ extension] := by
    rw [segments, hchars, partsBetween_intercalate (by simp)]
    · simp [String.append_assoc]
    · intro part hpart
      rcases List.mem_append.1 hpart with hpart | hpart
      · obtain ⟨segment, hsegment, rfl⟩ := List.mem_map.1 hpart
        exact hsegments segment (List.mem_append_left _ hsegment)
      · rw [List.mem_singleton.1 hpart, String.toList_append, String.toList_append]
        have hname' := hsegments name (List.mem_append_right _ (List.mem_singleton_self _))
        simp [hname', hslash]
  have hidle : isIdle (name ++ "." ++ extension) = false := by
    rw [isIdle, Bool.or_eq_false_iff, decide_eq_false_iff_not, decide_eq_false_iff_not]
    refine ⟨fun heq => ?_, fun heq => ?_⟩
    · rw [heq] at hlength
      exact absurd hlength (by decide)
    · rw [heq] at hlength
      exact absurd hlength (by decide)
  refine fileName?_eq_some_iff.2 ⟨?_, fun heq => ?_⟩
  · rw [steps, hparts, List.filter_append, List.filter_cons_of_pos (by simp [hidle])]
    exact List.getLast?_concat
  · rw [heq] at hlength
    exact absurd hlength (by decide)

/-- **An extension that is added is the extension of the new path.** -/
theorem extension?_of_addExtension? (hslash : '/' ∉ extension.toList) (hne : extension ≠ "")
    (hdot : '.' ∉ extension.toList) (h : addExtension? path extension = some path') :
    extension? path' = some extension := by
  obtain ⟨name, hname, hfile⟩ := fileName?_of_addExtension? hslash hne h
  have hchars : (name ++ "." ++ extension).toList.reverse =
      extension.toList.reverse ++ '.' :: name.toList.reverse := by
    simp [String.toList_append]
  have hplain : ∀ c ∈ extension.toList.reverse, decide (c ≠ '.') = true := by
    intro c hc
    have hne : c ≠ '.' := by
      rintro rfl
      exact hdot (List.mem_reverse.1 hc)
    simpa using hne
  obtain ⟨c, cs, hreverse⟩ := List.exists_cons_of_ne_nil
    (List.reverse_ne_nil_iff.2 fun hnil => hname (String.toList_eq_nil_iff.1 hnil))
  simp only [extension?, hfile, Option.bind_eq_bind, Option.bind_some, hchars]
  rw [List.takeWhile_append_of_pos hplain, List.dropWhile_append_of_pos hplain, hreverse]
  simp

end Path

/-! ### The name of a place -/

namespace FileTree

variable {t : FileTree} {place : List String}

/-- The last step down that is taken is the last one of the place. -/
theorem getLast?_of_foldlM_follow {segments : List String} {start : List String}
    (h : segments.foldlM t.follow start = .ok place) {name : String}
    (hlast : (segments.filter fun s => !Path.isIdle s).getLast? = some name)
    (hdown : name ≠ "..") : place.getLast? = some name := by
  -- idle segments at the end stay at the place, so the induction is from the back
  induction segments using List.reverseRecOn generalizing place with
  | nil => simp at hlast
  | append_singleton segments s ih =>
    rw [List.foldlM_append] at h
    cases hbefore : segments.foldlM t.follow start with
    | error e =>
      rw [hbefore] at h
      cases h
    | ok mid =>
      rw [hbefore] at h
      have hstep : (t.follow mid s >>= pure) = .ok place := h
      rw [bind_pure] at hstep
      unfold follow at hstep
      split at hstep
      · cases hstep
      · cases hstep
      · by_cases hidle : Path.isIdle s = true
        · rw [if_pos hidle] at hstep
          cases hstep
          rw [List.filter_append, List.filter_cons_of_neg (by simp [hidle]), List.filter_nil,
            List.append_nil] at hlast
          exact ih hbefore hlast
        · rw [List.filter_append, List.filter_cons_of_pos (by simpa using hidle), List.filter_nil,
            List.getLast?_concat, Option.some.injEq] at hlast
          subst hlast
          rw [if_neg hidle, if_neg hdown] at hstep
          split at hstep
          · cases hstep
          · cases hstep
            exact List.getLast?_concat

/-- The name of a path is the name of its place. -/
theorem getLast?_of_locate {path name : String} (h : t.locate path = .ok place)
    (hname : Path.fileName? path = some name) : place.getLast? = some name := by
  obtain ⟨hlast, hdown⟩ := Path.fileName?_eq_some_iff.1 hname
  unfold locate route at h
  split at h
  · cases h
  · split at h
    · cases h
    · split at h
      · cases h
      · exact getLast?_of_foldlM_follow h hlast hdown

/-- **Paths to one place have one extension.** -/
theorem extension?_eq_of_locate {path other extension : String} (h : t.locate path = .ok place)
    (hother : t.locate other = .ok place) (hname : (Path.fileName? other).isSome = true)
    (hextension : Path.extension? path = some extension) :
    Path.extension? other = some extension := by
  obtain ⟨name, hpath⟩ := Option.isSome_iff_exists.1 (Path.isSome_fileName? hextension)
  obtain ⟨name', hname'⟩ := Option.isSome_iff_exists.1 hname
  have hlast := (getLast?_of_locate h hpath).symm.trans (getLast?_of_locate hother hname')
  rw [← hextension]
  exact Path.extension?_congr (hname'.trans (hlast.symm.trans hpath.symm))

end FileTree

end EntityTypings
