import Stencil.Files.FileSystem

/-! Paths of files in a directory. -/
namespace Stencil.Path

variable {file name suffix : Text}

/-- A file in a directory is one more step. -/
theorem steps_join (directory : Path) (hne : file ≠ []) (hslash : '/' ∉ file) :
    (directory.join file).steps = directory.steps ++ [file] := by
  obtain ⟨d⟩ := directory
  have hhead : file.head? ≠ some '/' := fun h => hslash (List.mem_of_head? h)
  have hlast (d : Text) : (d ++ '/' :: file).splitOn '/' = d.splitOn '/' ++ [file] := by
    rw [List.splitOn_append_cons_self, List.splitOn_eq_singleton hslash]
  rw [join]
  split
  · rename_i h
    have hd : d = [] := h.resolve_left hhead
    subst hd
    simp [steps, List.splitOn_eq_singleton hslash, hne]
  split
  · rename_i hd
    obtain ⟨d, rfl⟩ := List.getLast?_eq_some_iff.mp hd
    have hempty : (d ++ ['/']).splitOn '/' = d.splitOn '/' ++ [[]] := by
      rw [List.splitOn_append_cons_self, List.splitOn_nil]
    simp only [steps, List.append_assoc, List.cons_append, List.nil_append, hlast, hempty,
      List.filter_append]
    simp [hne]
  · simp only [steps, hlast, List.filter_append]
    simp [hne]

/-- A file in a directory is looked up from where the directory is. -/
theorem isAbsolute_join (directory : Path) (hslash : '/' ∉ file) :
    (directory.join file).isAbsolute = directory.isAbsolute := by
  have hhead : file.head? ≠ some '/' := fun h => hslash (List.mem_of_head? h)
  obtain ⟨d⟩ := directory
  cases d with
  | nil => simp [join, isAbsolute, hhead]
  | cons c d =>
    rw [join, if_neg (by simp [hhead])]
    split <;> rfl

/-- The last step is the name of the file, unless it leads nowhere or outwards. -/
theorem fileName?_of_steps {p : Path} {before : List Text} (h : p.steps = before ++ [file])
    (hdot : file ≠ ['.']) (hdots : file ≠ ['.', '.']) : p.fileName? = some file := by
  have hlast : p.components.getLast? = some file := by
    rw [components, h]
    cases before with
    | nil => simp [hdot]
    | cons first before =>
      simp only [List.cons_append, List.filter_append]
      split <;> simp [List.getLast?_cons, hdot]
  simp [fileName?, hlast, hdot, hdots]

theorem splitName_append (hne : name ≠ []) (hsuffix : '.' ∉ suffix) :
    splitName (name ++ '.' :: suffix) = (name, some suffix) := by
  have hreverse : (name ++ '.' :: suffix).reverse = suffix.reverse ++ '.' :: name.reverse := by
    simp
  have hbefore : ∀ c ∈ suffix.reverse, c ≠ '.' := by
    rintro c hc rfl
    exact hsuffix (List.mem_reverse.mp hc)
  have hdrop : ((name ++ '.' :: suffix).reverse.dropWhile (· ≠ '.')).drop 1 = name.reverse := by
    rw [hreverse, List.dropWhile_append_of_pos (by simpa using hbefore)]
    simp
  have htake : (name ++ '.' :: suffix).reverse.takeWhile (· ≠ '.') = suffix.reverse := by
    rw [hreverse, List.takeWhile_append_of_pos (by simpa using hbefore)]
    simp
  simp only [splitName, hdrop, htake, List.reverse_reverse]
  simp [hne]

/-- A file in a directory has the extension of its name. -/
theorem extension?_join (directory : Path) (suffix : Text) (hname : name ≠ [])
    (hsuffix : suffix ≠ []) (hdot : '.' ∉ suffix) (hslash : '/' ∉ name ++ '.' :: suffix) :
    (directory.join (name ++ '.' :: suffix)).extension? = some suffix := by
  have hlong : 2 < (name ++ '.' :: suffix).length := by
    have := List.length_pos_iff.mpr hname
    have := List.length_pos_iff.mpr hsuffix
    simp
    omega
  have hne {short : Text} (h : short.length ≤ 2) : name ++ '.' :: suffix ≠ short := by
    rintro rfl
    omega
  have hfile := fileName?_of_steps (steps_join directory (hne (by simp)) hslash)
    (hne (by simp)) (hne (by simp))
  simp [extension?, hfile, splitName_append hname hdot]

end Stencil.Path
