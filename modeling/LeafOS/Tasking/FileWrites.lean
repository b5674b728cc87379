import LeafOS.Tasking.Fd
import Mathlib.Data.List.Basic

namespace leafos.tasking.fd

/-- The objects behind descriptors with the files on the disk, by path. -/
structure Storage where
  objects : Objects
  files : List UInt8 → Option (List UInt8)

namespace Storage

/-- `ext2::write_file`: it replaces the contents of a file, or it fails and changes no file. -/
def write_file (path contents : List UInt8) (stored : Bool) (self : Storage) : Storage :=
  if stored then { self with files := Function.update self.files path (some contents) } else self

/-- `create_file_write` with its effect on the disk. -/
def create_file_write (path : List UInt8) (written : Bool) (self : Storage) : Option (FileDescriptor × Storage) :=
  (fd.create_file_write path written self.objects).map fun (descriptor, objects) =>
    (descriptor, { write_file path [] written self with objects })

/-- `write` with its effect on the disk: all that a file descriptor has accumulated is stored. -/
def write (descriptor : FileDescriptor) (input : List UInt8) (stored : Bool) (self : Storage) :
    Except WriteError Nat × Storage :=
  match fd.write descriptor input stored self.objects with
  | (result, objects) =>
    match descriptor with
    | .FileWrite file =>
      match objects.file_writes[file]? with
      | some state => (result, write_file state.path state.contents stored { self with objects })
      | none => (result, { self with objects })
    | _ => (result, { self with objects })

end Storage

/-- A call of `write`, and whether `ext2::write_file` will accept the contents. -/
structure WriteCall where
  input : List UInt8
  stored : Bool
deriving Repr, DecidableEq

/-- Calls on one descriptor, or on its duplicates, with what each of them returned. -/
def Storage.write_all (descriptor : FileDescriptor) :
    List WriteCall → Storage → List (List UInt8 × Except WriteError Nat) × Storage
  | [], self => ([], self)
  | call :: rest, self =>
    match self.write descriptor call.input call.stored with
    | (result, after) =>
      match write_all descriptor rest after with
      | (history, final) => ((call.input, result) :: history, final)

/-- The inputs of the calls that returned `Ok`, in order. -/
def acknowledged (history : List (List UInt8 × Except WriteError Nat)) : List UInt8 :=
  history.flatMap fun (input, result) => if result.isOk then input else []

/-- What a call on a file descriptor returns. -/
def WriteCall.result (call : WriteCall) : Except WriteError Nat :=
  if call.stored then .ok call.input.length else .error .Io

theorem WriteCall.result_isOk (call : WriteCall) : call.result.isOk = call.stored := by
  rw [WriteCall.result]
  cases call.stored with
  | true => rfl
  | false => rfl

section Writing

variable {self : Storage} {file : Nat} {path image disk : List UInt8}
  (hfile : self.objects.file_writes[file]? = some ⟨path, image⟩)
include hfile

/-- A call extends the image in memory whether or not it can be stored. -/
theorem Storage.write_file_descriptor (hdisk : self.files path = some disk) (input : List UInt8) (stored : Bool) :
    ∃ after, self.write (.FileWrite file) input stored = (WriteCall.result ⟨input, stored⟩, after) ∧
      after.objects.file_writes[file]? = some ⟨path, image ++ input⟩ ∧
      after.files path = some (if stored then image ++ input else disk) := by
  let extended : Objects := { self.objects with
    file_writes := self.objects.file_writes.modify file fun state =>
      { state with contents := state.contents ++ input } }
  have hextended : extended.file_writes[file]? = some ⟨path, image ++ input⟩ := by
    rw [List.getElem?_modify_eq, hfile]
    rfl
  have hwrite : fd.write (.FileWrite file) input stored self.objects = (WriteCall.result ⟨input, stored⟩, extended) := by
    cases stored with
    | true => rfl
    | false => rfl
  refine ⟨write_file path (image ++ input) stored { self with objects := extended }, ?_, ?_, ?_⟩
  · simp only [Storage.write, hwrite, hextended]
  · cases stored with
    | true | false => exact hextended
  · cases stored with
    | true => exact Function.update_self _ _ _
    | false => exact hdisk

/-- The file holds the inputs of all calls up to the last one that returned `Ok`. -/
theorem Storage.write_all_persists (hdisk : self.files path = some disk) (calls : List WriteCall) :
    (self.write_all (.FileWrite file) calls).1 = calls.map (fun call => (call.input, call.result)) ∧
      ((∀ call ∈ calls, call.stored = false) ∧ (self.write_all (.FileWrite file) calls).2.files path = some disk ∨
        ∃ done last rest, calls = done ++ last :: rest ∧ last.stored = true ∧ (∀ call ∈ rest, call.stored = false) ∧
          (self.write_all (.FileWrite file) calls).2.files path =
            some (image ++ (done ++ [last]).flatMap WriteCall.input)) := by
  induction calls generalizing self image disk with
  | nil => exact ⟨rfl, .inl ⟨nofun, hdisk⟩⟩
  | cons call calls ih =>
    obtain ⟨after, hwrite, hfile', hdisk'⟩ := write_file_descriptor hfile hdisk call.input call.stored
    obtain ⟨hhistory, hends⟩ := ih hfile' hdisk'
    simp only [write_all, hwrite]
    refine ⟨by rw [hhistory, List.map_cons], ?_⟩
    obtain ⟨hnone, hkept⟩ | ⟨done, last, rest, rfl, hlast, hrest, hpersisted⟩ := hends
    · rw [hkept]
      cases hstored : call.stored with
      | true => exact .inr ⟨[], call, calls, rfl, hstored, hnone, by simp⟩
      | false => exact .inl ⟨List.forall_mem_cons.mpr ⟨hstored, hnone⟩, by simp⟩
    · refine .inr ⟨call :: done, last, rest, rfl, hlast, hrest, ?_⟩
      rw [hpersisted, List.cons_append, List.flatMap_cons, List.append_assoc]

end Writing

/-- A new descriptor has an empty image, and its file is empty. -/
theorem Storage.create_file_write_some {path : List UInt8} {self created : Storage} {descriptor : FileDescriptor}
    (hcreate : self.create_file_write path true = some (descriptor, created)) :
    ∃ file, descriptor = .FileWrite file ∧ created.objects.file_writes[file]? = some ⟨path, []⟩ ∧
      created.files path = some [] := by
  obtain ⟨⟨_, objects⟩, hnew, hsame⟩ := Option.map_eq_some_iff.mp hcreate
  obtain ⟨rfl, rfl⟩ := Prod.mk.inj hsame
  rw [fd.create_file_write, Option.ite_none_left_eq_some] at hnew
  obtain ⟨rfl, rfl⟩ := Prod.mk.inj (Option.some.inj hnew.2)
  exact ⟨_, rfl, List.getElem?_concat_length, Function.update_self _ _ _⟩

theorem acknowledged_map (calls : List WriteCall) :
    acknowledged (calls.map fun call => (call.input, call.result)) =
      calls.flatMap fun call => if call.stored then call.input else [] := by
  simp only [acknowledged, List.flatMap_map, WriteCall.result_isOk]

theorem acknowledged_of_failed {calls : List WriteCall} (hfailed : ∀ call ∈ calls, call.stored = false) :
    (calls.flatMap fun call => if call.stored then call.input else []) = [] := by
  refine List.flatMap_eq_nil_iff.mpr fun call hcall => ?_
  rw [hfailed call hcall]
  rfl

/-- What failed calls have left out shows, unless it is nothing. -/
theorem acknowledged_eq_iff (calls : List WriteCall) :
    (calls.flatMap fun call => if call.stored then call.input else []).length ≤ (calls.flatMap WriteCall.input).length ∧
      ((calls.flatMap fun call => if call.stored then call.input else []) = calls.flatMap WriteCall.input ↔
        ∀ call ∈ calls, call.stored = true ∨ call.input = []) := by
  induction calls with
  | nil => simp
  | cons call rest ih =>
    obtain ⟨hle, hiff⟩ := ih
    simp only [List.flatMap_cons, List.length_append, List.forall_mem_cons, ← hiff]
    cases call.stored with
    | true => exact ⟨Nat.add_le_add_left hle _, by simp⟩
    | false =>
      simp only [Bool.false_eq_true, if_false, List.nil_append, List.length_nil, false_or]
      refine ⟨by omega, fun hsame => ?_, fun ⟨hinput, hsame⟩ => by rw [hinput, hsame, List.nil_append]⟩
      have hlength := congrArg List.length hsame
      rw [List.length_append] at hlength
      have hinput : call.input = [] := List.length_eq_zero_iff.mp (by omega)
      exact ⟨hinput, by rwa [hinput] at hsame⟩

/-- A file descriptor persists exactly the writes that returned `Ok` if and only if no write with data
fails before one that succeeds. -/
theorem file_write_persists (path : List UInt8) (self created : Storage) (descriptor : FileDescriptor)
    (calls : List WriteCall) (hcreate : self.create_file_write path true = some (descriptor, created)) :
    (created.write_all descriptor calls).2.files path =
        some (acknowledged (created.write_all descriptor calls).1) ↔
      calls.Pairwise fun earlier later => later.stored = true → earlier.stored = true ∨ earlier.input = [] := by
  obtain ⟨file, rfl, hfile, hdisk⟩ := Storage.create_file_write_some hcreate
  obtain ⟨hhistory, hends⟩ := Storage.write_all_persists hfile hdisk calls
  rw [hhistory, acknowledged_map]
  obtain ⟨hnone, hkept⟩ | ⟨done, last, rest, rfl, hlast, hrest, hpersisted⟩ := hends
  · rw [hkept, acknowledged_of_failed hnone, iff_true_left rfl]
    exact List.pairwise_of_forall_mem_list fun _ _ later hlater hstored => by simp [hnone later hlater] at hstored
  · -- Nothing after the last successful call matters, and every call before it does.
    have hafter : (last :: rest).Pairwise fun earlier later =>
        later.stored = true → earlier.stored = true ∨ earlier.input = [] := by
      refine List.pairwise_cons.mpr ⟨fun _ _ _ => .inl hlast, List.pairwise_of_forall_mem_list ?_⟩
      exact fun _ _ later hlater hstored => by simp [hrest later hlater] at hstored
    rw [hpersisted, List.nil_append, List.flatMap_append, List.flatMap_append, List.flatMap_cons, List.flatMap_cons,
      acknowledged_of_failed hrest, if_pos hlast, List.flatMap_nil, Option.some_inj, List.append_left_inj, eq_comm,
      (acknowledged_eq_iff done).2, List.pairwise_append]
    refine ⟨fun hdone => ⟨?_, hafter, fun call hcall _ _ _ => hdone call hcall⟩, fun hpairs call hcall => ?_⟩
    · exact List.pairwise_of_forall_mem_list fun call hcall _ _ _ => hdone call hcall
    · exact hpairs.2.2 call hcall last List.mem_cons_self hlast

/-- A disk without files and no objects. -/
def sample_storage : Storage :=
  ⟨⟨[], [], [], ByteRing.empty⟩, fun _ => none⟩

/-- Two writes that are stored, and one that is not. -/
theorem file_write_persists_two : ∃ created, sample_storage.create_file_write [97] true = some (.FileWrite 0, created) ∧
    (created.write_all (.FileWrite 0) [⟨[1, 2], true⟩, ⟨[3], true⟩, ⟨[4], false⟩]).2.files [97] = some [1, 2, 3] := by
  refine ⟨_, rfl, ?_⟩
  exact (file_write_persists [97] sample_storage _ (.FileWrite 0) [⟨[1, 2], true⟩, ⟨[3], true⟩, ⟨[4], false⟩] rfl).mpr
    (by decide)

/-- The data of a write that failed reaches the file with the next one that succeeds. -/
theorem file_write_resurfaces : ∃ created, sample_storage.create_file_write [97] true = some (.FileWrite 0, created) ∧
    (created.write_all (.FileWrite 0) [⟨[1], false⟩, ⟨[2], true⟩]).1 = [([1], .error .Io), ([2], .ok 1)] ∧
    (created.write_all (.FileWrite 0) [⟨[1], false⟩, ⟨[2], true⟩]).2.files [97] = some [1, 2] ∧
    acknowledged (created.write_all (.FileWrite 0) [⟨[1], false⟩, ⟨[2], true⟩]).1 = [2] :=
  ⟨_, rfl, rfl, rfl, rfl⟩

end leafos.tasking.fd
