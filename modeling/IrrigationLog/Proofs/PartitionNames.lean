/-
# Partitions and their names

Two partitions share a file exactly when they are the same, but for readings of two years with
the same last two digits.  The names hold several numbers with a dash between them, and a year
below zero brings a dash of its own; what keeps them apart is that the other numbers are made
of digits only, and a padded number is told by its text (`padded_injective`).

* `append_cons_inj_left`, `append_cons_inj_right`: a text is cut at its first mark, or at its
  last, in one way only.
* `Partition.names_path_eq_system_iff`, `Partition.names_path_eq_watering_iff`,
  `Partition.names_path_eq_sensor_iff`: **whose file a partition is**.
* `Partition.text_path_eq_iff`: what holds of the places holds of the paths as they are written,
  because no directory of a category has a slash in its name.

`Partition.path_eq_iff` puts all of it together, for any two partitions below any root.
-/
import IrrigationLog.Partition.Key
import IrrigationLog.Proofs.PaddedNumbers
import IrrigationLog.Text.Split

namespace IrrigationLog

open Text

namespace Text

/-! ## 1. Cutting at a mark -/

variable {α : Type} {m : α} {as bs cs ds : List α}

/-- A list is cut at its first mark in one way. -/
theorem append_cons_inj_left (ha : m ∉ as) (hb : m ∉ bs) (h : as ++ m :: cs = bs ++ m :: ds) :
    as = bs ∧ cs = ds := by
  induction as generalizing bs with
  | nil =>
    cases bs with
    | nil => exact ⟨rfl, (List.cons.inj h).2⟩
    | cons b bs => exact absurd ((List.cons.inj h).1 ▸ List.mem_cons_self) hb
  | cons a as ih =>
    cases bs with
    | nil => exact absurd ((List.cons.inj h).1 ▸ List.mem_cons_self) ha
    | cons b bs =>
      obtain ⟨hab, htl⟩ := List.cons.inj h
      obtain ⟨hl, hr⟩ := ih (fun hm => ha (List.mem_cons_of_mem _ hm))
        (fun hm => hb (List.mem_cons_of_mem _ hm)) htl
      exact ⟨by rw [hab, hl], hr⟩

/-- A list is cut at its last mark in one way. -/
theorem append_cons_inj_right (hc : m ∉ cs) (hd : m ∉ ds) (h : as ++ m :: cs = bs ++ m :: ds) :
    as = bs ∧ cs = ds := by
  have hrev : cs.reverse ++ m :: as.reverse = ds.reverse ++ m :: bs.reverse := by
    simpa using congrArg List.reverse h
  obtain ⟨hl, hr⟩ := append_cons_inj_left (by simpa using hc) (by simpa using hd) hrev
  exact ⟨List.reverse_inj.mp hr, List.reverse_inj.mp hl⟩

end Text

/-! ## 2. Categories -/

namespace Sensor

/-- Sensors of two kinds have two categories. -/
theorem category_injective {k l : Sensor} (h : k.category = l.category) : k = l := by
  cases k <;> cases l <;> first | rfl | exact absurd h (by decide)

theorem category_ne_system (k : Sensor) : k.category ≠ .system := by cases k <;> decide

theorem category_ne_watering (k : Sensor) : k.category ≠ .watering := by cases k <;> decide

end Sensor

/-! ## 3. Files of partitions -/

namespace Partition

variable {root : Path} {p q : Partition}

/-- Two partitions have one path exactly when they have one directory and one file name. -/
theorem names_path_eq_iff :
    (p.path root).names = (q.path root).names ↔
      p.category = q.category ∧ p.fileChars = q.fileChars := by
  rw [names_path, names_path]
  constructor
  · intro h
    obtain ⟨hdir, hfile⟩ := List.cons.inj (List.append_cancel_left h)
    exact ⟨Category.dirName_injective hdir, String.ofList_injective (List.cons.inj hfile).1⟩
  · rintro ⟨hdir, hfile⟩
    rw [hdir, fileName, fileName, hfile]

/-- The partitions of the watering category are the watering partitions. -/
theorem exists_of_category_eq_watering (h : p.category = .watering) :
    ∃ year zone, p = watering year zone := by
  cases p with
  | system month year => exact absurd (show Category.system = .watering from h) (by decide)
  | watering year zone => exact ⟨year, zone, rfl⟩
  | sensor kind month year id => exact absurd h kind.category_ne_watering

/-- The partitions of the category of a sensor are partitions of sensors of its kind. -/
theorem exists_of_category_eq_sensor {kind : Sensor} (h : p.category = kind.category) :
    ∃ month year id, p = sensor kind month year id := by
  cases p with
  | system month year => exact absurd h.symm kind.category_ne_system
  | watering year zone => exact absurd h.symm kind.category_ne_watering
  | sensor k month year id => exact ⟨month, year, id, by rw [Sensor.category_injective h]⟩

/-- The partitions of the system category are the system logs. -/
theorem exists_of_category_eq_system (h : p.category = .system) :
    ∃ month year, p = system month year := by
  cases p with
  | system month year => exact ⟨month, year, rfl⟩
  | watering year zone => exact absurd (show Category.watering = .system from h) (by decide)
  | sensor kind month year id => exact absurd h kind.category_ne_system

/-- Partitions with one path start with one header. -/
theorem header_eq_of_names_path_eq (h : (p.path root).names = (q.path root).names) :
    p.header = q.header := by
  have hcat := (names_path_eq_iff.mp h).1
  cases q with
  | system month year =>
    obtain ⟨m, y, rfl⟩ := exists_of_category_eq_system hcat
    rfl
  | watering year zone =>
    obtain ⟨y, z, rfl⟩ := exists_of_category_eq_watering hcat
    rfl
  | sensor kind month year id =>
    obtain ⟨m, y, i, rfl⟩ := exists_of_category_eq_sensor hcat
    rfl

/-- **Whose file a system log is.** -/
theorem names_path_eq_system_iff {month : Nat} {year : Int} :
    (p.path root).names = ((system month year).path root).names ↔ p = system month year := by
  refine ⟨fun h => ?_, fun h => by rw [h]⟩
  obtain ⟨hcat, hfile⟩ := names_path_eq_iff.mp h
  obtain ⟨m, y, rfl⟩ := exists_of_category_eq_system hcat
  -- the year may bring a dash of its own, so the month is taken off the front
  have hnumbers : padded 2 m ++ '-' :: signedPadded 4 y
      = padded 2 month ++ '-' :: signedPadded 4 year := by
    have hnames := List.append_cancel_right hfile
    rw [List.append_assoc, List.append_assoc] at hnames
    exact List.append_cancel_left hnames
  obtain ⟨hm, hy⟩ := append_cons_inj_left (dash_not_mem_padded 2 m)
    (dash_not_mem_padded 2 month) hnumbers
  rw [padded_injective hm, signedPadded_injective hy]

/-- **Whose file a watering partition is.** -/
theorem names_path_eq_watering_iff {year : Int} {zone : Nat} :
    (p.path root).names = ((watering year zone).path root).names ↔ p = watering year zone := by
  refine ⟨fun h => ?_, fun h => by rw [h]⟩
  obtain ⟨hcat, hfile⟩ := names_path_eq_iff.mp h
  obtain ⟨y, z, rfl⟩ := exists_of_category_eq_watering hcat
  obtain ⟨hy, hz⟩ := append_cons_inj_right (dash_not_mem_padded 2 z)
    (dash_not_mem_padded 2 zone) (List.append_cancel_right hfile)
  rw [signedPadded_injective (List.append_cancel_left hy), padded_injective hz]

/-- **Whose file a sensor partition is**: of the year it keeps the last two digits. -/
theorem names_path_eq_sensor_iff {kind : Sensor} {month id : Nat} {year : Int} :
    (p.path root).names = ((sensor kind month year id).path root).names ↔
      ∃ y, p = sensor kind month y id ∧ y % 100 = year % 100 := by
  constructor
  · intro h
    obtain ⟨hcat, hfile⟩ := names_path_eq_iff.mp h
    obtain ⟨m, y, i, rfl⟩ := exists_of_category_eq_sensor hcat
    -- the three numbers are taken off the end, one dash after the other
    obtain ⟨hfile, hi⟩ := append_cons_inj_right (dash_not_mem_padded 3 i)
      (dash_not_mem_padded 3 id) (List.append_cancel_right hfile)
    obtain ⟨hfile, hy⟩ := append_cons_inj_right (dash_not_mem_padded 2 (y % 100).toNat)
      (dash_not_mem_padded 2 (year % 100).toNat) hfile
    obtain ⟨-, hm⟩ := append_cons_inj_right (dash_not_mem_padded 2 m)
      (dash_not_mem_padded 2 month) hfile
    have hyear : (y % 100).toNat = (year % 100).toNat := padded_injective hy
    refine ⟨y, ?_, by omega⟩
    rw [padded_injective hi, padded_injective hm]
  · rintro ⟨y, rfl, hy⟩
    refine names_path_eq_iff.mpr ⟨rfl, ?_⟩
    unfold fileChars
    dsimp only
    rw [hy]

end Partition

/-! ## 4. Paths as they are written -/

/-- No directory of a category has a slash in its name. -/
theorem Category.slash_notMem_dirName (c : Category) : '/' ∉ c.dirName.toList := by
  cases c <;> decide

namespace Path

/-- A path is what is written of it and where it leads. -/
theorem eq_of_text_of_names {p q : Path} (htext : p.text = q.text) (hnames : p.names = q.names) :
    p = q := by
  cases p
  cases q
  simp_all

/-- To put a name below a path is to put one text in front of it, whatever the name. -/
theorem exists_front (text : String) :
    ∃ front : List Char, ∀ name, (joinText text name).toList = front ++ name.toList := by
  unfold joinText
  split
  · exact ⟨[], fun name => rfl⟩
  · split
    · exact ⟨text.toList, fun name => by simp⟩
    · exact ⟨text.toList ++ ['/'], fun name => by simp⟩

/-- Below the directory of a category a name follows a slash. -/
theorem joinText_of_directory {text : String} {front : List Char} {c : Category}
    (h : text.toList = front ++ c.dirName.toList) (name : String) :
    (joinText text name).toList = front ++ c.dirName.toList ++ '/' :: name.toList := by
  have hlast : text.toList.getLast? = c.dirName.toList.getLast? := by
    rw [h, List.getLast?_append]
    cases c <;> rfl
  have hslash : text.toList.getLast? ≠ some '/' := by
    rw [hlast]
    intro hlast
    exact c.slash_notMem_dirName (List.mem_of_getLast? hlast)
  have hempty : text ≠ "" := by
    rintro rfl
    cases c <;> cases hlast
  rw [joinText, if_neg hempty, if_neg hslash]
  simp [h]

end Path

namespace Partition

variable {root : Path} {p q : Partition}

/-- The path of a partition is written as its directory, a slash and its file name, behind a text
that is the same for all partitions below a root. -/
theorem exists_text_path (root : Path) :
    ∃ front : List Char, ∀ p : Partition,
      (p.path root).text.toList = front ++ (p.category.dirName.toList ++ '/' :: p.fileChars) := by
  obtain ⟨front, hfront⟩ := Path.exists_front root.text
  refine ⟨front, fun p => ?_⟩
  have htext := Path.joinText_of_directory (hfront p.category.dirName) p.fileName
  rw [fileName, String.toList_ofList, List.append_assoc] at htext
  exact htext

/-- Two paths are written alike exactly when they lead to one place. -/
theorem text_path_eq_iff :
    (p.path root).text = (q.path root).text ↔ (p.path root).names = (q.path root).names := by
  obtain ⟨front, htext⟩ := exists_text_path root
  rw [← String.toList_inj, htext, htext, List.append_cancel_left_eq, names_path_eq_iff]
  constructor
  · intro h
    obtain ⟨hdir, hfile⟩ := append_cons_inj_left p.category.slash_notMem_dirName
      q.category.slash_notMem_dirName h
    exact ⟨Category.dirName_injective (String.toList_inj.mp hdir), hfile⟩
  · rintro ⟨hdir, hfile⟩
    rw [hdir, hfile]

/-! ## 5. Keys -/

/-- Two keys of one kind with equal parts; of the year of a reading the last two digits count. -/
def SameKey : Partition → Partition → Prop
  | system month year, system month' year' => month = month' ∧ year = year'
  | watering year zone, watering year' zone' => year = year' ∧ zone = zone'
  | sensor kind month year id, sensor kind' month' year' id' =>
    kind = kind' ∧ month = month' ∧ year % 100 = year' % 100 ∧ id = id'
  | _, _ => False

/-- Two partitions have one place exactly when they have the same key. -/
theorem names_path_eq_iff_sameKey :
    (p.path root).names = (q.path root).names ↔ p.SameKey q := by
  cases q with
  | system month year =>
    rw [names_path_eq_system_iff]
    cases p <;> simp [SameKey]
  | watering year zone =>
    rw [names_path_eq_watering_iff]
    cases p <;> simp [SameKey]
  | sensor kind month year id =>
    rw [names_path_eq_sensor_iff]
    cases p with
    | sensor kind' month' year' id' =>
      simp only [SameKey, sensor.injEq]
      constructor
      · rintro ⟨y, ⟨rfl, rfl, rfl, rfl⟩, hy⟩
        exact ⟨rfl, rfl, hy, rfl⟩
      · rintro ⟨rfl, rfl, hy, rfl⟩
        exact ⟨year', ⟨rfl, rfl, rfl, rfl⟩, hy⟩
    | system | watering => simp [SameKey]

/-- **Partitions never collide**: below any root, two of them have one path, as it is written and
as it leads through the tree, exactly when they have the same key. -/
theorem path_eq_iff (root : Path) (p q : Partition) :
    ((p.path root).text = (q.path root).text ↔ p.SameKey q) ∧
      ((p.path root).names = (q.path root).names ↔ p.SameKey q) ∧
      (p.path root = q.path root ↔ p.SameKey q) := by
  have hnames : (p.path root).names = (q.path root).names ↔ p.SameKey q := names_path_eq_iff_sameKey
  have htext : (p.path root).text = (q.path root).text ↔ p.SameKey q :=
    text_path_eq_iff.trans hnames
  refine ⟨htext, hnames, ?_⟩
  constructor
  · intro h
    exact htext.mp (congrArg Path.text h)
  · intro h
    exact Path.eq_of_text_of_names (htext.mpr h) (hnames.mpr h)

/-- A year below zero brings a dash of its own. -/
example : (path ⟨"/sd", ["sd"]⟩ (.watering (-5) 24)).text = "/sd/watering.log/wat--005-24.log" := by
  decide +kernel

end Partition

end IrrigationLog
