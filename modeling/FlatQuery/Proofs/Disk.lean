/-
# Paths that lead to files

A path from which a file is read leads to the location at which a file is written by that
path, because what lies behind a folder lies in folders all the way (`Disk.target_of_read`).
Putting a file somewhere leaves all folders where they are, and so every path that led to a
location still leads there.  When there was a file already, paths that lead nowhere do so for
the same reason as before.
-/
import FlatQuery.Disk
import Mathlib.Data.List.DropRight
import Mathlib.Tactic.Lemma

namespace FlatQuery.Disk

variable {disk : Disk} {location other l : Location} {path : String} {bytes old : Bytes}
  {names : List (List Char)}

/-! ## Following a path -/

lemma pathNames_ne_nil (path : List Char) : pathNames path ≠ [] := by
  cases path with
  | nil => simp [pathNames]
  | cons c path =>
    rw [pathNames]
    split
    · simp
    · simpa using pathNames_ne_nil path

lemma follow_of_not_isTurn {name : List Char} (h : isTurn name = false) :
    l.follow name = l ++ [name] := by
  have hback : name ≠ ['.', '.'] := by
    rintro rfl
    cases h
  rw [Location.follow, if_neg hback, if_neg (by simp [h])]

lemma folderAt_eq_ok_iff :
    disk.folderAt l = .ok location ↔ l = location ∧ disk.node? l = some .folder := by
  unfold folderAt
  split <;> simp_all

/-- A list of names is followed by following the first names and then the others. -/
lemma walk_append (more : List (List Char)) :
    disk.walk l (names ++ more) = disk.walk l names >>= fun between => disk.walk between more := by
  induction names generalizing l with
  | nil => rfl
  | cons name names ih =>
    rw [List.cons_append, walk, walk]
    cases disk.folderAt l with
    | error e => rfl
    | ok folder => exact ih

/-- The last name is followed from a folder to which the other ones lead. -/
lemma walk_append_singleton_eq_ok_iff {name : List Char} :
    disk.walk l (names ++ [name]) = .ok location ↔
      ∃ folder, disk.walk l names = .ok folder ∧ disk.node? folder = some .folder ∧
        folder.follow name = location := by
  have hlast : ∀ folder, disk.walk folder [name] = .ok location ↔
      disk.node? folder = some .folder ∧ folder.follow name = location := by
    intro folder
    rw [walk, bind_eq_ok_iff]
    constructor
    · rintro ⟨_, hfolder, hfollow⟩
      obtain ⟨rfl, hnode⟩ := folderAt_eq_ok_iff.1 hfolder
      exact ⟨hnode, Except.ok.inj hfollow⟩
    · rintro ⟨hnode, rfl⟩
      exact ⟨folder, folderAt_eq_ok_iff.2 ⟨rfl, hnode⟩, rfl⟩
  rw [walk_append, bind_eq_ok_iff]
  exact exists_congr fun folder => and_congr_right fun _ => hlast folder

lemma locate_eq_ok_iff :
    disk.locate path = .ok location ↔
      checkPath path = .ok () ∧
        disk.walk (disk.start path) (pathNames path.toList) = .ok location := by
  rw [locate, bind_eq_ok_iff]
  exact ⟨fun ⟨_, hcheck, hwalk⟩ => ⟨hcheck, hwalk⟩, fun ⟨hcheck, hwalk⟩ => ⟨(), hcheck, hwalk⟩⟩

lemma read_eq_ok_iff :
    disk.read path = .ok bytes ↔
      ∃ l, disk.locate path = .ok l ∧ disk.node? l = some (.file bytes) := by
  rw [read, bind_eq_ok_iff]
  refine exists_congr fun l => and_congr_right fun _ => ?_
  cases disk.node? l with
  | none => simp
  | some node => cases node <;> simp

/-- A file is written at a location behind a folder, under a name that leads further. -/
lemma target_eq_ok_iff :
    disk.target path = .ok location ↔
      checkPath path = .ok () ∧ ∃ names name folder, pathNames path.toList = names ++ [name] ∧
        isTurn name = false ∧ disk.walk (disk.start path) names = .ok folder ∧
        disk.node? folder = some .folder ∧ folder ++ [name] = location ∧
        disk.node? location ≠ some .folder := by
  unfold target
  rw [bind_eq_ok_iff]
  constructor
  · rintro ⟨_, hcheck, h⟩
    obtain ⟨around, hwalk, h⟩ := bind_eq_ok_iff.1 h
    obtain ⟨_, hfolder, h⟩ := bind_eq_ok_iff.1 h
    obtain ⟨rfl, hnode⟩ := folderAt_eq_ok_iff.1 hfolder
    split at h
    · cases h
    next name hlast =>
    split at h
    · cases h
    next hplain =>
    split at h
    · cases h
    next hnew =>
    -- no name is left out at the end, so the solid names are all names
    simp only [Bool.or_eq_true, decide_eq_true_eq, not_or, Nat.not_lt] at hplain
    have hsolid : (pathNames path.toList).rdropWhile (· == []) = pathNames path.toList :=
      (List.rdropWhile_prefix _ _).eq_of_length_le hplain.2
    change (List.rdropWhile _ _).getLast? = _ at hlast
    change disk.walk _ (List.rdropWhile _ _).dropLast = _ at hwalk
    rw [hsolid] at hlast hwalk
    obtain ⟨names, hnames⟩ := List.getLast?_eq_some_iff.1 hlast
    rw [hnames, List.dropLast_concat] at hwalk
    obtain rfl := Except.ok.inj h
    exact ⟨hcheck, names, name, around, hnames, by simpa using hplain.1, hwalk, hnode, rfl, hnew⟩
  · rintro ⟨hcheck, names, name, folder, hnames, hplain, hwalk, hnode, rfl, hnew⟩
    have hne : ¬(name == []) = true := by
      rintro hempty
      rw [eq_of_beq hempty] at hplain
      cases hplain
    have hsolid : ((pathNames path.toList).reverse.dropWhile (· == [])).reverse =
        names ++ [name] := by
      rw [hnames]
      exact List.rdropWhile_concat_neg _ _ _ hne
    refine ⟨(), hcheck, ?_⟩
    simp only [hsolid, List.dropLast_concat, hwalk, List.getLast?_concat]
    simp [bind, Except.bind, folderAt_eq_ok_iff.2 ⟨rfl, hnode⟩, hplain, hnames, hnew]

/-! ## Locations in folders -/

/-- Everything around a location is a folder. -/
def LiesInFolders (disk : Disk) (location : Location) : Prop :=
  ∀ l, l <+: location.dropLast → disk.node? l = some .folder

lemma liesInFolders_start (disk : Disk) (path : String) :
    disk.LiesInFolders (disk.start path) := by
  intro l hl
  apply disk.around
  rw [start] at hl
  split at hl
  · rw [List.prefix_nil.1 hl]
    exact List.nil_prefix
  · exact hl.trans (List.dropLast_prefix _)

lemma LiesInFolders.follow (h : disk.LiesInFolders l) (hfolder : disk.node? l = some .folder)
    (name : List Char) : disk.LiesInFolders (l.follow name) := by
  unfold Location.follow
  split
  · exact fun l' hl' => h l' (hl'.trans (List.dropLast_prefix _))
  split
  · exact h
  · intro l' hl'
    rw [List.dropLast_concat] at hl'
    rcases List.eq_nil_or_concat' l with rfl | ⟨before, last, rfl⟩
    · rw [List.prefix_nil.1 hl', hfolder]
    · rcases List.prefix_concat_iff.1 hl' with rfl | hl'
      · exact hfolder
      · exact h l' (by rwa [List.dropLast_concat])

lemma LiesInFolders.walk (h : disk.LiesInFolders l) (hwalk : disk.walk l names = .ok location) :
    disk.LiesInFolders location := by
  induction names generalizing l with
  | nil => exact Except.ok.inj hwalk ▸ h
  | cons name names ih =>
    rw [Disk.walk, bind_eq_ok_iff] at hwalk
    obtain ⟨_, hfolder, hwalk⟩ := hwalk
    obtain ⟨rfl, hnode⟩ := folderAt_eq_ok_iff.1 hfolder
    exact ih (h.follow hnode name) hwalk

/-! ## Reading and writing by one path -/

/-- A file is written at the location to which its path leads. -/
lemma locate_of_target (h : disk.target path = .ok location) : disk.locate path = .ok location := by
  obtain ⟨hcheck, names, name, folder, hnames, hplain, hwalk, hnode, rfl, -⟩ := target_eq_ok_iff.1 h
  rw [locate_eq_ok_iff, hnames, walk_append_singleton_eq_ok_iff]
  exact ⟨hcheck, folder, hwalk, hnode, follow_of_not_isTurn hplain⟩

lemma node?_ne_folder_of_target (h : disk.target path = .ok location) :
    disk.node? location ≠ some .folder := by
  obtain ⟨-, _, _, _, -, -, -, -, -, hnew⟩ := target_eq_ok_iff.1 h
  exact hnew

/-- Where a file is found, it can be written. -/
lemma target_of_locate (hlocate : disk.locate path = .ok location)
    (hfile : disk.node? location = some (.file bytes)) : disk.target path = .ok location := by
  obtain ⟨hcheck, hwalk⟩ := locate_eq_ok_iff.1 hlocate
  obtain ⟨names, name, hnames⟩ :=
    (List.eq_nil_or_concat' _).resolve_left (pathNames_ne_nil path.toList)
  rw [hnames, walk_append_singleton_eq_ok_iff] at hwalk
  obtain ⟨folder, hfolder, hnode, rfl⟩ := hwalk
  have hplain : isTurn name = false := by
    -- a turn leads to the folder itself or to the one around it, which are no files
    rw [← Bool.not_eq_true]
    intro hturn
    rw [Location.follow, if_pos hturn] at hfile
    split at hfile
    · have haround := (liesInFolders_start disk path).walk hfolder _ List.prefix_rfl
      rw [haround] at hfile
      cases hfile
    · rw [hnode] at hfile
      cases hfile
  rw [follow_of_not_isTurn hplain] at hfile ⊢
  exact target_eq_ok_iff.2
    ⟨hcheck, names, name, folder, hnames, hplain, hfolder, hnode, rfl, by simp [hfile]⟩

/-! ## Putting a file -/

lemma node?_putFile_eq_folder_iff :
    (disk.putFile location bytes).node? l = some .folder ↔ disk.node? l = some .folder := by
  simp only [putFile]
  split
  · next hput => simp [hput.2]
  · exact Iff.rfl

lemma node?_putFile_self (h : disk.node? location ≠ some .folder) :
    (disk.putFile location bytes).node? location = some (.file bytes) :=
  if_pos ⟨rfl, h⟩

lemma node?_putFile_of_ne (h : l ≠ location) :
    (disk.putFile location bytes).node? l = disk.node? l :=
  if_neg fun hput => h hput.1

/-- Of two files that are put at one location the later one counts. -/
lemma putFile_putFile (later : Bytes) :
    (disk.putFile location bytes).putFile location later = disk.putFile location later := by
  have hnode : ((disk.putFile location bytes).putFile location later).node? =
      (disk.putFile location later).node? := by
    funext l
    by_cases hl : l = location
    · subst hl
      by_cases hfolder : disk.node? l = some .folder <;> simp [putFile, hfolder]
    · simp [putFile, hl]
  rw [putFile, mk.injEq]
  exact ⟨rfl, hnode⟩

/-- Files that are put at different locations may be put in either order. -/
lemma putFile_comm (h : location ≠ other) (bytes more : Bytes) :
    (disk.putFile location bytes).putFile other more =
      (disk.putFile other more).putFile location bytes := by
  have hnode : ((disk.putFile location bytes).putFile other more).node? =
      ((disk.putFile other more).putFile location bytes).node? := by
    funext l
    by_cases hl : l = location
    · subst hl
      simp [putFile, h]
    · by_cases ho : l = other <;> simp [putFile, hl, ho, h.symm]
  rw [putFile, mk.injEq]
  exact ⟨rfl, hnode⟩

/-- Names that lead to a location still lead there when a file is put somewhere. -/
lemma walk_putFile (h : disk.walk l names = .ok other) :
    (disk.putFile location bytes).walk l names = .ok other := by
  induction names generalizing l with
  | nil => exact h
  | cons name names ih =>
    rw [walk, bind_eq_ok_iff] at h ⊢
    obtain ⟨folder, hfolder, hwalk⟩ := h
    obtain ⟨rfl, hnode⟩ := folderAt_eq_ok_iff.1 hfolder
    exact ⟨l, folderAt_eq_ok_iff.2 ⟨rfl, node?_putFile_eq_folder_iff.2 hnode⟩, ih hwalk⟩

lemma target_putFile (h : disk.target path = .ok l) :
    (disk.putFile location bytes).target path = .ok l := by
  obtain ⟨hcheck, names, name, folder, hnames, hplain, hwalk, hnode, heq, hnew⟩ :=
    target_eq_ok_iff.1 h
  exact target_eq_ok_iff.2 ⟨hcheck, names, name, folder, hnames, hplain, walk_putFile hwalk,
    node?_putFile_eq_folder_iff.2 hnode, heq, mt node?_putFile_eq_folder_iff.1 hnew⟩

/-- The written file is read by the path by which it was written. -/
theorem read_putFile (h : disk.target path = .ok location) :
    (disk.putFile location bytes).read path = .ok bytes :=
  read_eq_ok_iff.2 ⟨location, locate_of_target (target_putFile h),
    node?_putFile_self (node?_ne_folder_of_target h)⟩

/-- Putting a file in place of another one changes nothing about where paths lead. -/
theorem locate_putFile_of_file (h : disk.node? location = some (.file old)) (path : String) :
    (disk.putFile location bytes).locate path = disk.locate path := by
  -- a file is no folder, whatever it contains
  have hfolderAt : ∀ l, (disk.putFile location bytes).folderAt l = disk.folderAt l := by
    intro l
    by_cases hl : l = location
    · subst hl
      rw [folderAt, folderAt, node?_putFile_self (by simp [h]), h]
    · rw [folderAt, folderAt, node?_putFile_of_ne hl]
  have hwalk : ∀ names l, (disk.putFile location bytes).walk l names = disk.walk l names := by
    intro names
    induction names with
    | nil => exact fun l => rfl
    | cons name names ih =>
      intro l
      rw [walk, walk, hfolderAt]
      simp only [ih]
  rw [locate, locate, hwalk]
  rfl

/-- A file that is put in place of another one is read by the paths that lead there, and by no
other path. -/
theorem read_putFile_of_file (h : disk.node? location = some (.file old)) (path : String) :
    (disk.putFile location bytes).read path =
      if disk.locate path = .ok location then .ok bytes else disk.read path := by
  rw [read, locate_putFile_of_file h]
  split
  · next hlocate =>
    rw [hlocate, bind_ok, node?_putFile_self (by simp [h])]
  · next hlocate =>
    rw [read]
    cases hl : disk.locate path with
    | error e => rfl
    | ok l =>
      have hne : l ≠ location := by
        rintro rfl
        exact hlocate hl
      rw [bind_ok, bind_ok, node?_putFile_of_ne hne]

end FlatQuery.Disk
