import Schemata.Disk
import Schemata.Proofs.Keyed
import Schemata.Proofs.Outcome
import Mathlib.Data.List.DropRight
import Mathlib.Data.List.Infix

/-!
# What a write changes

Of a disk a program sees which file a path leads to and what is in a file. Several paths may lead to
one file, so a write is told by the file that it stores: no other file changes, paths that led
somewhere lead there still, and a file that no path led to before is a new one. The files around a
working directory are such a disk.
-/
namespace Schemata

/-- Started in a state, a program ends with an answer and in a state that are as the property says. -/
def Leads {σ α : Type} (x : StateM σ α) (s : σ) (P : α → σ → Prop) : Prop :=
  P (x.run s).1 (x.run s).2

namespace Leads
variable {σ α β : Type} {s : σ} {P P' : α → σ → Prop} {Q : β → σ → Prop}

theorem pure {a : α} (h : P a s) : Leads (pure a) s P := h

theorem bind {x : StateM σ α} {f : α → StateM σ β} (hx : Leads x s P)
    (hf : ∀ a s', P a s' → Leads (f a) s' Q) : Leads (x >>= f) s Q := hf _ _ hx

theorem mono {x : StateM σ α} (hx : Leads x s P) (h : ∀ a s', P a s' → P' a s') :
    Leads x s P' := h _ _ hx

end Leads

/-! ### What is on a disk -/

/-- What can be seen of a disk at one moment. -/
structure Snapshot (File : Type) where
  /-- The file or directory that a path leads to. Different paths may lead to the same one. -/
  resolve? : String → Option File
  /-- What is in a file; there is nothing of the kind in a directory. -/
  bytes? : File → Option ByteArray

namespace Snapshot
variable {File : Type}

/-- A path leads to a file with this text. -/
def Holds (snapshot : Snapshot File) (path text : String) : Prop :=
  ∃ file, snapshot.resolve? path = some file ∧ snapshot.bytes? file = some text.toByteArray

/-- A text has been stored under a path, in this file. -/
structure Stores (before : Snapshot File) (path text : String) (after : Snapshot File)
    (file : File) : Prop where
  target : after.resolve? path = some file
  there : after.bytes? file = some text.toByteArray
  elsewhere : ∀ other, other ≠ file → after.bytes? other = before.bytes? other
  /-- Only paths that led nowhere may lead elsewhere now, and only to this file. -/
  ways : ∀ p, after.resolve? p = before.resolve? p ∨
    before.resolve? p = none ∧ after.resolve? p = some file
  /-- If nothing was there under the path, the file is a new one. -/
  fresh : before.resolve? path = none → ∀ p, before.resolve? p ≠ some file

end Snapshot

/-- A disk by what can be seen of it in each state: what it says of a path and what it reads is so,
and only a write changes what can be seen. A write fails and changes nothing, or it stores the whole
text. Reading and writing may fail for reasons that cannot be seen. -/
structure Disk.Shows {σ File : Type} (disk : Disk (StateM σ)) (see : σ → Snapshot File) :
    Prop where
  hasPath : ∀ path s, Leads (disk.hasPath path) s fun found s' =>
    found = ((see s).resolve? path).isSome ∧ see s' = see s
  read : ∀ path s, Leads (disk.read path) s fun answer s' =>
    (∀ text, answer = .ok text → (see s).Holds path text) ∧ see s' = see s
  write : ∀ path text s, Leads (disk.write path text) s fun
    | .error _, s' => see s' = see s
    | .ok (), s' => ∃ file, (see s).Stores path text (see s') file

/-- Some bytes that are no UTF-8. -/
def Entry.noText : ByteArray := ⟨#[255]⟩

def Entry.bytes? : Entry → Option ByteArray
  | text content => some content.toByteArray
  | bytes => some noText
  | directory => none

namespace Files
variable {files files' : Files} {path content : String} {spot parent other : Spot}
  {names : List String} {name : String}

/-! ### Ways -/

theorem requireDirectory_eq_ok {done : Unit} :
    files.requireDirectory spot = .ok done ↔ files.entry? spot = some .directory := by
  unfold requireDirectory
  rcases files.entry? spot with _ | _ | _ | _ <;> simp

theorem walk_push_eq_ok : files.walk spot (names ++ [name]) = .ok other ↔
    ∃ parent, files.walk spot names = .ok parent ∧ files.entry? parent = some .directory ∧
      other = files.step name parent := by
  induction names generalizing spot with
  | nil =>
    simp only [List.nil_append, walk, bind_eq_ok, requireDirectory_eq_ok, Except.ok.injEq]
    constructor
    · rintro ⟨_, hdirectory, rfl⟩
      exact ⟨spot, rfl, hdirectory, rfl⟩
    · rintro ⟨_, rfl, hdirectory, rfl⟩
      exact ⟨(), hdirectory, rfl⟩
  | cons first names ih =>
    simp only [List.cons_append, walk, bind_eq_ok, ih]
    constructor
    · rintro ⟨_, hdirectory, parent, hwalk, hparent, rfl⟩
      exact ⟨parent, ⟨_, hdirectory, hwalk⟩, hparent, rfl⟩
    · rintro ⟨parent, ⟨_, hdirectory, hwalk⟩, hparent, rfl⟩
      exact ⟨_, hdirectory, parent, hwalk, hparent, rfl⟩

/-- The same directories around the same working directory. -/
structure SameWays (files files' : Files) : Prop where
  here : files'.here = files.here
  directories : ∀ spot, files'.entry? spot = some .directory ↔ files.entry? spot = some .directory

namespace SameWays
variable (h : SameWays files files')
include h

theorem names_eq (spot : Spot) : files'.names spot = files.names spot := by
  cases spot <;> simp [Files.names, h.here]

theorem spot_eq (names : List String) : files'.spot names = files.spot names := by
  simp [Files.spot, h.here]

theorem child_eq (name : String) (spot : Spot) : files'.child name spot = files.child name spot := by
  simp [child, h.names_eq, h.spot_eq]

theorem step_eq (name : String) (spot : Spot) : files'.step name spot = files.step name spot := by
  simp [step, Files.parent, h.child_eq, h.names_eq, h.spot_eq]

theorem start_eq (path : String) : files'.start path = files.start path := by
  unfold start
  rw [h.spot_eq]

theorem walk_eq_ok : files'.walk spot names = .ok other ↔ files.walk spot names = .ok other := by
  induction names generalizing spot with
  | nil => rfl
  | cons name names ih =>
    simp only [walk, bind_eq_ok, requireDirectory_eq_ok, h.directories, h.step_eq, ih]

theorem locate_eq_ok : files'.locate path = .ok other ↔ files.locate path = .ok other := by
  unfold locate
  split
  · simp
  · rw [h.start_eq]
    exact h.walk_eq_ok

end SameWays

/-- A path names a file by a last name in a directory. -/
structure Names (files : Files) (path : String) (parent : Spot) (name : String) : Prop where
  nonempty : path.isEmpty = false
  proper : name ≠ "" ∧ name ≠ "." ∧ name ≠ ".."
  directory : files.entry? parent = some .directory
  way : ∃ names, (files.start path).2 = names ++ [name] ∧
    files.walk (files.start path).1 names = .ok parent

/-- Where no slash ends a path, its last piece is a name. -/
theorem dropLast_append_name {pieces : List String}
    (hlast : (pieces.rdropWhile (· == "")).getLast? = some name)
    (hlength : pieces.length ≤ (pieces.rdropWhile (· == "")).length) :
    pieces.rdropWhile (· == "") = pieces ∧ pieces.dropLast ++ [name] = pieces ∧ name ≠ "" := by
  have hpieces : pieces.rdropWhile (· == "") = pieces :=
    (List.rdropWhile_prefix _ _).eq_of_length_le hlength
  have hsplit := List.dropLast_append_getLast? name (hpieces ▸ hlast)
  refine ⟨hpieces, hsplit, ?_⟩
  rintro rfl
  rw [← hsplit, List.rdropWhile_concat_pos _ _ _ rfl] at hpieces
  have hshorter := (List.rdropWhile_prefix (· == "") pieces.dropLast).length_le
  rw [hpieces, List.length_append] at hshorter
  exact Nat.not_succ_le_self _ hshorter

theorem names_of_target (h : files.target path = .ok spot) :
    ∃ parent name, Names files path parent name ∧ spot = files.child name parent := by
  unfold target at h
  split at h
  · cases h
  · rename_i hpath
    dsimp only at h
    split at h
    · cases h
    · rename_i name hlast
      change ((files.start path).2.rdropWhile (· == "")).getLast? = some name at hlast
      simp only [bind_eq_ok, requireDirectory_eq_ok] at h
      obtain ⟨parent, hwalk, _, hdirectory, h⟩ := h
      change files.walk (files.start path).1 ((files.start path).2.rdropWhile (· == "")).dropLast =
        _ at hwalk
      split at h
      · cases h
      · rename_i hproper
        simp only [Bool.or_eq_true, decide_eq_true_eq, not_or, Nat.not_lt] at hproper
        obtain ⟨⟨hlength, hdot⟩, hdots⟩ := hproper
        obtain ⟨hpieces, hsplit, hname⟩ := dropLast_append_name hlast hlength
        rw [hpieces] at hwalk
        cases h
        exact ⟨parent, name, ⟨by simpa using hpath, ⟨hname, hdot, hdots⟩, hdirectory,
          (files.start path).2.dropLast, hsplit.symm, hwalk⟩, rfl⟩

theorem Names.locate (h : Names files path parent name) :
    files.locate path = .ok (files.child name parent) := by
  obtain ⟨hne, ⟨hname, hdot, hdots⟩, hdirectory, names, hpieces, hwalk⟩ := h
  have hstep : files.child name parent = files.step name parent := by
    simp [step, hname, hdot, hdots]
  rw [Files.locate, hne, if_neg Bool.false_ne_true]
  dsimp only
  rw [hpieces, walk_push_eq_ok]
  exact ⟨parent, hwalk, hdirectory, hstep⟩

/-! ### Writing -/

theorem lookup_write (entries : List (Spot × Entry)) {entry : Entry} (h : other ≠ spot) :
    ((spot, entry) :: entries.filter (·.1 != spot)).lookup other = entries.lookup other := by
  rw [List.lookup_cons, beq_eq_false_iff_ne.2 h, Keyed.lookup_filter_ne, if_neg h]

/-- What a write changes: at one spot, where no directory was, there is the text. -/
structure Writes (files : Files) (path content : String) (files' : Files) (spot : Spot) : Prop where
  here : files'.here = files.here
  located : files.locate path = .ok spot
  free : files.entry? spot ≠ some .directory
  there : files'.entry? spot = some (.text content)
  elsewhere : ∀ other, other ≠ spot → files'.entry? other = files.entry? other

theorem exists_writes (h : files.write path content = .ok files') :
    ∃ spot, Writes files path content files' spot := by
  obtain ⟨spot, htarget, h⟩ := bind_eq_ok.1 h
  obtain ⟨parent, name, hnames, rfl⟩ := names_of_target htarget
  split at h
  · cases h
  · rename_i hfree
    cases h
    refine ⟨_, rfl, hnames.locate, hfree, ?_, fun other hother => ?_⟩
    · have hbelow : ¬(files.names (files.child name parent)).isSuffixOf files.here = true :=
        fun hsuffix => hfree (if_pos hsuffix)
      exact (if_neg hbelow).trans (by simp)
    · exact if_congr Iff.rfl rfl (lookup_write _ hother)

theorem Writes.sameWays (h : Writes files path content files' spot) : SameWays files files' where
  here := h.here
  directories other := by
    by_cases hother : other = spot
    · rw [hother, h.there]
      simp [h.free]
    · rw [h.elsewhere other hother]

/-! ### Files as a disk -/

def resolve? (files : Files) (path : String) : Option Spot :=
  (files.locate path).toOption.filter fun spot => (files.entry? spot).isSome

theorem resolve?_eq_some : files.resolve? path = some spot ↔
    files.locate path = .ok spot ∧ (files.entry? spot).isSome = true := by
  unfold resolve?
  cases files.locate path <;> simp [Except.toOption, Option.filter_eq_some_iff]

def snapshot (files : Files) : Snapshot Spot where
  resolve? := files.resolve?
  bytes? spot := (files.entry? spot).bind Entry.bytes?

theorem Writes.stores (h : Writes files path content files' spot) :
    files.snapshot.Stores path content files'.snapshot spot := by
  have hthere {p : String} (hp : files.locate p = .ok spot) : files'.resolve? p = some spot := by
    rw [resolve?_eq_some, h.sameWays.locate_eq_ok, h.there]
    exact ⟨hp, rfl⟩
  constructor
  case target => exact hthere h.located
  case there => simp [snapshot, h.there, Entry.bytes?]
  case elsewhere => simp +contextual [snapshot, h.elsewhere]
  case ways =>
    intro p
    change files'.resolve? p = files.resolve? p ∨
      files.resolve? p = none ∧ files'.resolve? p = some spot
    by_cases hp : files.locate p = .ok spot
    · cases hbefore : files.resolve? p with
      | none => exact .inr ⟨rfl, hthere hp⟩
      | some other =>
        have hother := (resolve?_eq_some.1 hbefore).1
        cases hother.symm.trans hp
        exact .inl (hthere hp)
    · refine .inl (Option.ext fun other => ?_)
      rw [resolve?_eq_some, resolve?_eq_some, h.sameWays.locate_eq_ok]
      refine and_congr_right fun hother => ?_
      rw [h.elsewhere other fun heq => hp (heq ▸ hother)]
  case fresh =>
    intro hnone p hp
    have hspot := resolve?_eq_some.2 ⟨h.located, (resolve?_eq_some.1 hp).2⟩
    cases hnone.symm.trans hspot

theorem hasPath_eq (files : Files) (path : String) :
    files.hasPath path = (files.resolve? path).isSome := by
  unfold hasPath resolve?
  cases files.locate path with
  | error fault => rfl
  | ok spot =>
    cases hentry : files.entry? spot <;> simp [Except.toOption, hentry]

theorem holds_of_read (h : files.read path = .ok content) : files.snapshot.Holds path content := by
  obtain ⟨spot, hlocate, h⟩ := bind_eq_ok.1 h
  cases hentry : files.entry? spot with
  | none =>
    rw [hentry] at h
    cases h
  | some entry =>
    rw [hentry] at h
    cases entry with
    | bytes | directory => cases h
    | text content' =>
      cases h
      refine ⟨spot, resolve?_eq_some.2 ⟨hlocate, by simp [hentry]⟩, ?_⟩
      simp [snapshot, hentry, Entry.bytes?]

theorem shows_disk : disk.Shows snapshot where
  hasPath path files := ⟨files.hasPath_eq path, rfl⟩
  read _ _ := ⟨fun _ h => holds_of_read h, rfl⟩
  write path text files := by
    apply Leads.bind (P := fun now files' => now = files ∧ files' = files) ⟨rfl, rfl⟩
    rintro _ files ⟨rfl, rfl⟩
    split
    · exact .pure rfl
    · rename_i after hafter
      obtain ⟨spot, hwrites⟩ := exists_writes hafter
      refine Leads.bind (P := fun _ files' => files' = after) rfl fun _ _ hfiles => .pure ?_
      exact ⟨spot, hfiles ▸ hwrites.stores⟩

end Files
end Schemata
