import ReactorRpc.Http
import ReactorRpc.RegistryCache

namespace ReactorRpc.CacheFile
open Streams Http RegistryClient

/-- The files of the working directory by their names. -/
abbrev Directory := Bytes → Option Bytes

/-- The name under which the file system knows the cache file of a service. -/
def filename (service : Bytes) : Bytes := cString (service ++ asciiText "_cache.txt")

def tmpFile (service : Bytes) : Bytes := cString (service ++ asciiText "_cache.txt.tmp")

def rename (dir : Directory) (old new : Bytes) : Directory :=
  Function.update (Function.update dir old none) new (dir old)

/-- `saveToDisk`. Whether its stream has failed, it does not ask. -/
def saveToDisk (dir : Directory) (service : Bytes) (addrs : List Bytes) : SaveResult → Directory
  | .unopened => dir
  | .complete =>
    rename (Function.update dir (tmpFile service) (some (saveText addrs))) (tmpFile service) (filename service)
  | .cut text =>
    rename (Function.update dir (tmpFile service) (some text)) (tmpFile service) (filename service)

/-- `std::getline`: the characters in front of the next newline, which is taken out
too. It fails when there is nothing left. -/
def getline (text : Bytes) : Option (Bytes × Bytes) :=
  if text = [] then none
  else some (text.takeWhile (· ≠ lineEnd), (text.dropWhile (· ≠ lineEnd)).tail)

theorem getline_shorter {text line rest : Bytes} (read : getline text = some (line, rest)) :
    rest.length < text.length := by
  unfold getline at read
  split at read
  · cases read
  · rename_i some_
    cases read
    have shrinks := (List.dropWhile_suffix (· ≠ lineEnd) (l := text)).length_le
    have positive := List.length_pos_iff.mpr some_
    rw [List.length_tail]
    omega

/-- The loop of `loadFromDisk`. -/
def readLines (text : Bytes) : List Bytes :=
  match _read : getline text with
  | none => []
  | some (line, rest) => if line ≠ [] then line :: readLines rest else readLines rest
termination_by text.length
decreasing_by all_goals exact getline_shorter ‹_›

def loadFromDisk (dir : Directory) (service : Bytes) (opened : Bool) : List Bytes :=
  match dir (filename service), opened with
  | some text, true => readLines text
  | _, _ => []

/-- What is read is the text up to a newline or to its end. -/
theorem getline_eq {text line rest : Bytes} (read : getline text = some (line, rest)) :
    lineEnd ∉ line ∧ (text = line ++ lineEnd :: rest ∨ text = line ∧ rest = []) := by
  unfold getline at read
  split at read
  · cases read
  · cases read
    have whole := List.takeWhile_append_dropWhile (p := fun c => decide (c ≠ lineEnd)) (l := text)
    refine ⟨fun there => ?_, ?_⟩
    · have other := List.mem_takeWhile_imp there
      simp at other
    · cases behind : text.dropWhile (· ≠ lineEnd) with
      | nil =>
        rw [behind, List.append_nil] at whole
        exact .inr ⟨whole.symm, rfl⟩
      | cons c rest =>
        have stop := List.head_dropWhile_not (fun c => decide (c ≠ lineEnd)) (l := text)
          (by rw [behind]; exact List.cons_ne_nil c rest)
        simp only [behind, List.head_cons, decide_eq_false_iff_not, not_not] at stop
        rw [behind, stop] at whole
        exact .inl whole.symm

theorem getline_newline {line : Bytes} (plain : lineEnd ∉ line) (rest : Bytes) :
    getline (line ++ lineEnd :: rest) = some (line, rest) := by
  have front : ∀ c ∈ line, decide (c ≠ lineEnd) = true := fun c member =>
    decide_eq_true fun same => plain (same ▸ member)
  rw [getline, if_neg (by simp), List.takeWhile_append_of_pos front, List.dropWhile_append_of_pos front]
  simp

theorem readLines_next {text line rest : Bytes} (read : getline text = some (line, rest)) :
    readLines text = if line ≠ [] then line :: readLines rest else readLines rest := by
  rw [readLines]
  split
  · rename_i none
    cases none.symm.trans read
  · rename_i again
    cases again.symm.trans read
    rfl

theorem readLines_end {text : Bytes} (read : getline text = none) : readLines text = [] := by
  rw [readLines]
  split
  · rfl
  · rename_i again
    cases again.symm.trans read

/-- No line that is read is empty or has a newline in it. -/
theorem readLines_mem {text line : Bytes} (member : line ∈ readLines text) :
    line ≠ [] ∧ lineEnd ∉ line := by
  induction text using readLines.induct with
  | case1 text read =>
    rw [readLines_end read] at member
    cases member
  | case2 text first rest read some_ ih =>
    rw [readLines_next read, if_pos some_] at member
    rcases List.mem_cons.mp member with rfl | later
    · exact ⟨some_, (getline_eq read).1⟩
    · exact ih later
  | case3 text first rest read none ih =>
    rw [readLines_next read, if_neg none] at member
    exact ih member

theorem loadText_next {text line rest : Bytes} (read : getline text = some (line, rest)) :
    loadText text = if line ≠ [] then line :: loadText rest else loadText rest := by
  obtain ⟨plain, rfl | ⟨rfl, rfl⟩⟩ := getline_eq read
  · rw [loadText, List.splitOn_append_cons_self_of_not_mem plain, List.filter_cons]
    simp only [decide_eq_true_eq, loadText]
  · rw [loadText, List.splitOn_eq_singleton plain, List.filter_cons]
    simp [loadText]

/-- The loop reads what is between the newlines, without what is empty. -/
theorem readLines_eq (text : Bytes) : readLines text = loadText text := by
  induction text using readLines.induct with
  | case1 text read =>
    have empty : text = [] := by
      by_contra some_
      rw [getline, if_neg some_] at read
      cases read
    rw [readLines_end read, empty]
    rfl
  | case2 text first rest read some_ ih => rw [readLines_next read, loadText_next read, ih]
  | case3 text first rest read none ih => rw [readLines_next read, loadText_next read, ih]

/-- The two agree with what the cache is modelled with. -/
theorem loadFromDisk_eq (dir : Directory) (service : Bytes) (opened : Bool) {file : Option DiskFile}
    (there : file.map DiskFile.text = dir (filename service)) :
    loadFromDisk dir service opened = (RegistryClient.loadFromDisk file opened).1 := by
  unfold loadFromDisk
  rw [← there]
  cases file with
  | none => cases opened <;> rfl
  | some file =>
    cases opened with
    | false => rfl
    | true => exact readLines_eq file.text

/-- What is saved is read back. -/
theorem loadFromDisk_saved (dir : Directory) (service : Bytes) (addrs : List Bytes) :
    loadFromDisk (saveToDisk dir service addrs .complete) service true = readLines (saveText addrs) := by
  simp [loadFromDisk, saveToDisk, rename]

theorem saveToDisk_file (dir : Directory) (service : Bytes) (addrs : List Bytes) (result : SaveResult)
    (moment : Nat) (old : Option DiskFile) (there : old.map DiskFile.text = dir (filename service)) :
    saveToDisk dir service addrs result (filename service) =
      (result.file old addrs moment).map DiskFile.text := by
  cases result with
  | unopened => exact there.symm
  | complete | cut => simp [saveToDisk, rename, SaveResult.file]

/-- Lines without a newline are read back, one for each address. -/
theorem readLines_saveText {addrs : List Bytes} (some_ : ∀ addr ∈ addrs, addr ≠ [])
    (plain : ∀ addr ∈ addrs, lineEnd ∉ addr) : readLines (saveText addrs) = addrs := by
  induction addrs with
  | nil => exact readLines_end rfl
  | cons addr addrs ih =>
    obtain ⟨first, others⟩ := List.forall_mem_cons.mp some_
    obtain ⟨free, frees⟩ := List.forall_mem_cons.mp plain
    have text : saveText (addr :: addrs) = addr ++ lineEnd :: saveText addrs := by
      simp [saveText]
    rw [text, readLines_next (getline_newline free _), if_pos first, ih others frees]

/-- The list that the registry publishes for a service comes back from the disk
exactly if no address in it has a newline. -/
theorem disk_round_trip_iff (parse : Bytes → Except JsonException Json) (ops : List RegistryCenter.Op)
    (service : Bytes) (dir : Directory) :
    let list := (RegistryCenter.run parse ops).addresses service
    loadFromDisk (saveToDisk dir service list .complete) service true = list ↔
      ∀ addr ∈ list, lineEnd ∉ addr := by
  intro list
  rw [loadFromDisk_saved]
  constructor
  · intro same addr member
    rw [← same] at member
    exact (readLines_mem member).2
  · exact readLines_saveText fun addr member => RegistryCenter.address_ne_nil parse ops member

/-- An address with a newline, which the center accepts, comes back as two. -/
theorem newline_splits_address :
    ¬∀ (parse : Bytes → Except JsonException Json) (ops : List RegistryCenter.Op) (service : Bytes)
      (dir : Directory),
      let list := (RegistryCenter.run parse ops).addresses service
      loadFromDisk (saveToDisk dir service list .complete) service true = list := by
  intro kept
  let body := asciiText "\x7b\"service\":\"math\",\"address\":\"a\\nb\"\x7d"
  let parse : Bytes → Except JsonException Json := fun text =>
    if text = body then
      .ok (.object [(asciiText "address", .string (asciiText "a\nb")),
        (asciiText "service", .string (asciiText "math"))])
    else .error .parse_error
  have accepted : RegistryCenter.Accepted parse body (asciiText "math") (asciiText "a\nb") :=
    ⟨⟨_, if_pos rfl, rfl⟩, by decide, by decide⟩
  have listed := RegistryCenter.addresses_registered accepted
  have back := kept parse [.register body] (asciiText "math") fun _ => none
  have halves : loadText (saveText [asciiText "a\nb"]) = [asciiText "a", asciiText "b"] := by decide
  dsimp only at back
  rw [listed, loadFromDisk_saved, readLines_eq, halves] at back
  exact absurd back (by decide)

end ReactorRpc.CacheFile
