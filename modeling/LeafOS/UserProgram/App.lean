import LeafOS.Fs.Ext2.Files
import LeafOS.Memory.Construction
import LeafOS.UserProgram

/-!
The versioned `.app` images: `parse_app_image` accepts the images that are a header and
then exactly the code and the data the header announces.
-/

namespace leafos.user_program

open leafos.memory leafos.fs Prog

variable {width offset value : Nat} {rest : List UInt8}

def RAW_PROGRAM_MAX_SIZE : Nat := 64 * 1024
def APP_MAGIC : List UInt8 := [0x4c, 0x45, 0x41, 0x46, 0x41, 0x50, 0x50, 0]
def APP_VERSION : Nat := 1
def APP_HEADER_SIZE : Nat := 48

structure AppLayout where
  entry_offset : Nat
  code_len : Nat
  data_offset : Nat
  data_len : Nat
  bss_len : Nat
deriving Repr, DecidableEq

/-- The little-endian number of the given width at an offset of the image. -/
def read_number (width : Nat) (image : List UInt8) (offset : Nat) : Option Nat :=
  (Bytes.slice? image offset width).map Bytes.decode

def read_u16 : List UInt8 → Nat → Option Nat := read_number 2
def read_u32 : List UInt8 → Nat → Option Nat := read_number 4
def read_u64 : List UInt8 → Nat → Option Nat := read_number 8

def parse_app_image (image : List UInt8) : Outcome ProgramError AppLayout := do
  Outcome.refuse (image.length < APP_HEADER_SIZE || Bytes.slice? image 0 8 != some APP_MAGIC) .InvalidAppFormat
  let version ← Outcome.okOr (read_u16 image 8) .InvalidAppFormat
  Outcome.refuse (version != APP_VERSION) .UnsupportedAppVersion
  Outcome.refuse (read_u16 image 10 != some APP_HEADER_SIZE || read_u32 image 12 != some 0) .InvalidAppFormat
  let entry_offset ← Outcome.okOr (checked_usize (← Outcome.okOr (read_u64 image 16) .InvalidAppFormat))
    .InvalidAppFormat
  let code_len ← Outcome.okOr (checked_usize (← Outcome.okOr (read_u64 image 24) .InvalidAppFormat)) .ImageTooLarge
  let data_len ← Outcome.okOr (checked_usize (← Outcome.okOr (read_u64 image 32) .InvalidAppFormat)) .ImageTooLarge
  let bss_len ← Outcome.okOr (checked_usize (← Outcome.okOr (read_u64 image 40) .InvalidAppFormat)) .ImageTooLarge
  Outcome.refuse (code_len == 0) .EmptyImage
  Outcome.refuse (code_len ≤ entry_offset) .InvalidAppFormat
  let memory_size ← Outcome.okOr ((checked_add code_len data_len).bind fun size => checked_add size bss_len)
    .ImageTooLarge
  Outcome.refuse (APP_MAX_MEMORY_SIZE < memory_size) .ImageTooLarge
  let data_offset ← Outcome.okOr (checked_add APP_HEADER_SIZE code_len) .InvalidAppFormat
  let file_size ← Outcome.okOr (checked_add data_offset data_len) .InvalidAppFormat
  Outcome.refuse (file_size != image.length) .InvalidAppFormat
  return { entry_offset, code_len, data_offset, data_len, bss_len }

/-- `image.get(start..stop)`. -/
def get_range (image : List UInt8) (start stop : Nat) : Option (List UInt8) :=
  if start ≤ stop then Bytes.slice? image start (stop - start) else none

def load_app_image (active : PhysFrame) (image path : List UInt8) (arguments : List (List UInt8))
    (reservations : Reservations) : Prog MemoryManager ProgramError LoadedProgram := do
  let layout ← lift_outcome (parse_app_image image)
  let data_end ← okOr (checked_add layout.data_offset layout.data_len) .InvalidAppFormat
  let code ← okOr (get_range image APP_HEADER_SIZE layout.data_offset) .InvalidAppFormat
  let data ← okOr (get_range image layout.data_offset data_end) .InvalidAppFormat
  load_segments active code data layout.bss_len layout.entry_offset path arguments reservations

/-- The size that `load_from_ext2_with_arguments` passes to `read_file_vec`, unless the path has
neither of the two extensions. -/
def max_size (path : List UInt8) : Option Nat :=
  if [0x2e, 0x62, 0x69, 0x6e] <:+ path then some RAW_PROGRAM_MAX_SIZE
  else if [0x2e, 0x61, 0x70, 0x70] <:+ path then some (APP_HEADER_SIZE + APP_MAX_MEMORY_SIZE)
  else none

/-- The header that announces the given sizes. -/
def app_header (entry_offset code_len data_len bss_len : Nat) : List UInt8 :=
  APP_MAGIC ++ (Bytes.encode 2 APP_VERSION ++ (Bytes.encode 2 APP_HEADER_SIZE ++ (Bytes.encode 4 0 ++
    (Bytes.encode 8 entry_offset ++ (Bytes.encode 8 code_len ++ (Bytes.encode 8 data_len ++ Bytes.encode 8 bss_len))))))

/-- The image consists of the header for the layout, the code and the data. -/
structure AppImage (image : List UInt8) (layout : AppLayout) (code data : List UInt8) : Prop where
  bytes : image = app_header layout.entry_offset code.length data.length layout.bss_len ++ (code ++ data)
  code_len : layout.code_len = code.length
  data_offset : layout.data_offset = APP_HEADER_SIZE + code.length
  data_len : layout.data_len = data.length
  entry : layout.entry_offset < code.length
  memory : code.length + data.length + layout.bss_len ≤ APP_MAX_MEMORY_SIZE

variable {image code data : List UInt8} {layout : AppLayout}

theorem app_header_length (entry_offset code_len data_len bss_len : Nat) :
    (app_header entry_offset code_len data_len bss_len).length = APP_HEADER_SIZE := by
  simp only [app_header, List.length_append, Bytes.encode_length]
  rfl

theorem AppImage.length_eq (himage : AppImage image layout code data) :
    image.length = APP_HEADER_SIZE + (code.length + data.length) := by
  rw [himage.bytes, List.length_append, app_header_length, List.length_append]

/-- A number that is read is the encoding of it in the image. -/
theorem read_number_eq_some (hwidth : 0 < width) :
    read_number width image offset = some value ↔
      value < 256 ^ width ∧ image.drop offset = Bytes.encode width value ++ image.drop (offset + width) := by
  unfold read_number Bytes.slice?
  constructor
  · intro hread
    split at hread
    · rename_i hroom
      rw [Option.map_some, Option.some.injEq] at hread
      subst hread
      have hlength : ((image.drop offset).take width).length = width := by
        rw [List.length_take, List.length_drop]
        omega
      refine ⟨Bytes.decode_take_lt _ _, ?_⟩
      have hencode := Bytes.encode_decode ((image.drop offset).take width)
      rw [hlength] at hencode
      rw [hencode, ← List.drop_drop, List.take_append_drop]
    · cases hread
  · rintro ⟨hvalue, hdrop⟩
    have hlength := congrArg List.length hdrop
    simp only [List.length_drop, List.length_append, Bytes.encode_length] at hlength
    rw [if_pos (by omega), hdrop, List.take_left' (Bytes.encode_length _ _), Option.map_some, Bytes.decode_encode hvalue]

/-- What follows a field of the image. -/
theorem drop_field {field : List UInt8} (hdrop : image.drop offset = field ++ rest) :
    image.drop (offset + field.length) = rest := by
  rw [← List.drop_drop, hdrop, List.drop_left]

/-- A field that stands in the image is read. -/
theorem read_number_field (hwidth : 0 < width)
    (hvalue : value < 256 ^ width) (hdrop : image.drop offset = Bytes.encode width value ++ rest) :
    read_number width image offset = some value ∧ image.drop (offset + width) = rest := by
  have hrest := drop_field hdrop
  rw [Bytes.encode_length] at hrest
  exact ⟨(read_number_eq_some hwidth).mpr ⟨hvalue, hrest ▸ hdrop⟩, hrest⟩

theorem slice_magic : Bytes.slice? image 0 8 = some APP_MAGIC ↔ image = APP_MAGIC ++ image.drop 8 := by
  unfold Bytes.slice?
  rw [List.drop_zero, Nat.zero_add]
  constructor
  · intro hslice
    split at hslice
    · rw [← Option.some.inj hslice, List.take_append_drop]
    · cases hslice
  · intro himage
    have hlength := congrArg List.length himage
    have hmagic : APP_MAGIC.length = 8 := rfl
    rw [List.length_append, hmagic] at hlength
    rw [if_pos (by omega), himage, List.take_left' hmagic]

/-- The numbers that `parse_app_image` reads, and the checks it makes on them. -/
theorem parse_app_image_fields :
    parse_app_image image = .ok layout ↔ image = APP_MAGIC ++ image.drop 8 ∧
      read_number 2 image 8 = some APP_VERSION ∧ read_number 2 image 10 = some APP_HEADER_SIZE ∧
      read_number 4 image 12 = some 0 ∧ read_number 8 image 16 = some layout.entry_offset ∧
      read_number 8 image 24 = some layout.code_len ∧ read_number 8 image 32 = some layout.data_len ∧
      read_number 8 image 40 = some layout.bss_len ∧ layout.entry_offset < layout.code_len ∧
      layout.code_len + layout.data_len + layout.bss_len ≤ APP_MAX_MEMORY_SIZE ∧
      layout.data_offset = APP_HEADER_SIZE + layout.code_len ∧
      image.length = APP_HEADER_SIZE + layout.code_len + layout.data_len := by
  simp only [parse_app_image, Outcome.bind_eq_ok_iff, Outcome.okOr_eq_ok_iff, Outcome.refuse_eq_ok_iff,
    Outcome.pure_eq_ok_iff, read_u16, read_u32, read_u64, checked_usize_eq_some, Bool.or_eq_false_iff,
    bne_eq_false_iff_eq, beq_eq_false_iff_ne, decide_eq_false_iff_not, Option.bind_eq_some_iff, checked_add_eq_some,
    slice_magic]
  constructor
  · rintro ⟨_, ⟨_, hmagic⟩, _, hversion, _, rfl, _, ⟨hheader, hzero⟩, entry, hentry, _, ⟨_, rfl⟩, code_len, hcode, _,
      ⟨_, rfl⟩, data_len, hdata, _, ⟨_, rfl⟩, bss_len, hbss, _, ⟨_, rfl⟩, _, hempty, _, hinside, _,
      ⟨_, ⟨_, rfl⟩, _, rfl⟩, _, hlimit, _, ⟨_, rfl⟩, _, ⟨_, rfl⟩, _, hfile, rfl⟩
    exact ⟨hmagic, hversion, hheader, hzero, hentry, hcode, hdata, hbss, Nat.lt_of_not_le hinside,
      Nat.le_of_not_lt hlimit, rfl, hfile.symm⟩
  · rintro ⟨hmagic, hversion, hheader, hzero, hentry, hcode, hdata, hbss, hinside, hlimit, hoffset, hfile⟩
    have hsmall : APP_MAX_MEMORY_SIZE < 2 ^ 63 := by decide
    have hsize : APP_HEADER_SIZE < 2 ^ 62 := by decide
    refine ⟨(), ⟨by omega, hmagic⟩, _, hversion, (), rfl, (), ⟨hheader, hzero⟩, _, hentry, _, ⟨by omega, rfl⟩, _, hcode,
      _, ⟨by omega, rfl⟩, _, hdata, _, ⟨by omega, rfl⟩, _, hbss, _, ⟨by omega, rfl⟩, (), by omega, (), by omega, _,
      ⟨_, ⟨by omega, rfl⟩, by omega, rfl⟩, (), by omega, _, ⟨by omega, rfl⟩, _, ⟨by omega, rfl⟩, (), hfile.symm, ?_⟩
    rw [← hoffset]

/-- `parse_app_image` accepts the images of the format and no others. -/
theorem parse_app_image_eq_ok : parse_app_image image = .ok layout ↔ ∃ code data, AppImage image layout code data := by
  rw [parse_app_image_fields]
  constructor
  · rintro ⟨hmagic, hversion, hheader, hzero, hentry, hcode, hdata, hbss, hinside, hlimit, hoffset, hfile⟩
    have hrest : image.drop 48 = (image.drop 48).take layout.code_len ++ image.drop (48 + layout.code_len) := by
      rw [← List.drop_drop, List.take_append_drop]
    have hsize : APP_HEADER_SIZE = 48 := rfl
    have hcode_len : ((image.drop 48).take layout.code_len).length = layout.code_len := by
      rw [List.length_take, List.length_drop]
      omega
    have hdata_len : (image.drop (48 + layout.code_len)).length = layout.data_len := by
      rw [List.length_drop]
      omega
    refine ⟨(image.drop 48).take layout.code_len, image.drop (48 + layout.code_len), ?_, hcode_len.symm, ?_,
      hdata_len.symm, ?_, ?_⟩
    · have h40 : image.drop 40 = _ ++ image.drop 48 := ((read_number_eq_some (by decide)).mp hbss).2
      have h32 : image.drop 32 = _ ++ image.drop 40 := ((read_number_eq_some (by decide)).mp hdata).2
      have h24 : image.drop 24 = _ ++ image.drop 32 := ((read_number_eq_some (by decide)).mp hcode).2
      have h16 : image.drop 16 = _ ++ image.drop 24 := ((read_number_eq_some (by decide)).mp hentry).2
      have h12 : image.drop 12 = _ ++ image.drop 16 := ((read_number_eq_some (by decide)).mp hzero).2
      have h10 : image.drop 10 = _ ++ image.drop 12 := ((read_number_eq_some (by decide)).mp hheader).2
      have h8 : image.drop 8 = _ ++ image.drop 10 := ((read_number_eq_some (by decide)).mp hversion).2
      rw [hcode_len, hdata_len, ← hrest, app_header]
      simp only [List.append_assoc]
      rw [← h40, ← h32, ← h24, ← h16, ← h12, ← h10, ← h8]
      exact hmagic
    all_goals rw [hcode_len]
    · exact hoffset
    · exact hinside
    · rw [hdata_len]
      exact hlimit
  · rintro ⟨code, data, himage⟩
    have hmemory := himage.memory
    have hentry_lt := himage.entry
    have hlimit : APP_MAX_MEMORY_SIZE < 256 ^ 8 := by decide
    have hmagic := himage.bytes
    simp only [app_header, List.append_assoc] at hmagic
    have h8 : image.drop 8 = _ := drop_field (image.drop_zero.trans hmagic)
    obtain ⟨hversion, h10⟩ := read_number_field (by decide) (by decide) h8
    obtain ⟨hheader, h12⟩ := read_number_field (by decide) (by decide) h10
    obtain ⟨hzero, h16⟩ := read_number_field (by decide) (by decide) h12
    obtain ⟨hentry, h24⟩ := read_number_field (by decide) (by omega) h16
    obtain ⟨hcode, h32⟩ := read_number_field (by decide) (by omega) h24
    obtain ⟨hdata, h40⟩ := read_number_field (by decide) (by omega) h32
    obtain ⟨hbss, _⟩ := read_number_field (by decide) (by omega) h40
    rw [himage.code_len, himage.data_len]
    refine ⟨h8 ▸ hmagic, hversion, hheader, hzero, hentry, hcode, hdata, hbss, hentry_lt, hmemory,
      himage.data_offset, ?_⟩
    rw [himage.length_eq, Nat.add_assoc]

theorem max_size_app {path : List UInt8} (hpath : [0x2e, 0x61, 0x70, 0x70] <:+ path) :
    max_size path = some (APP_HEADER_SIZE + APP_MAX_MEMORY_SIZE) := by
  have hraw : ¬ [0x2e, 0x62, 0x69, 0x6e] <:+ path := by
    intro hraw
    have heq := (List.suffix_of_suffix_length_le hraw hpath (by decide)).eq_of_length rfl
    exact absurd heq (by decide)
  rw [max_size, if_neg hraw, if_pos hpath]

section Accepted

variable (himage : AppImage image layout code data)
include himage

/-- The ranges of the layout are the code and the data. -/
theorem AppImage.get_range :
    get_range image APP_HEADER_SIZE layout.data_offset = some code ∧
      get_range image layout.data_offset (layout.data_offset + layout.data_len) = some data := by
  have hlength := himage.length_eq
  have hcode := drop_field (image.drop_zero.trans himage.bytes)
  rw [Nat.zero_add, app_header_length] at hcode
  have hdata : image.drop (APP_HEADER_SIZE + code.length) = data := drop_field hcode
  rw [himage.data_offset, himage.data_len]
  unfold user_program.get_range Bytes.slice?
  rw [if_pos (by omega), if_pos (by omega), if_pos (by omega), if_pos (by omega), Nat.add_sub_cancel_left,
    Nat.add_sub_cancel_left, hcode, hdata, List.take_left, List.take_length]
  exact ⟨rfl, rfl⟩

/-- `load_app_image` loads the segments of an accepted image. -/
theorem AppImage.load_app_image (active : PhysFrame) (path : List UInt8) (arguments : List (List UInt8))
    (reservations : Reservations) : load_app_image active image path arguments reservations =
      load_segments active code data layout.bss_len layout.entry_offset path arguments reservations := by
  have hparse := parse_app_image_eq_ok.mpr ⟨code, data, himage⟩
  obtain ⟨hcode, hdata⟩ := himage.get_range
  have hend : checked_add layout.data_offset layout.data_len = some (layout.data_offset + layout.data_len) := by
    have hmemory := himage.memory
    have hlimit : APP_MAX_MEMORY_SIZE < 2 ^ 63 := by decide
    have hheader : APP_HEADER_SIZE < 2 ^ 62 := by decide
    rw [checked_add_eq_some, himage.data_offset, himage.data_len]
    omega
  funext manager
  simp only [user_program.load_app_image, lift_outcome, hparse, hend, hcode, hdata, Prog.bind_apply, Prog.okOr_some]

theorem AppImage.length_le : image.length ≤ APP_HEADER_SIZE + APP_MAX_MEMORY_SIZE := by
  have hmemory := himage.memory
  have hlength := himage.length_eq
  omega

/-- The cap on the size of the file refuses no accepted image. -/
theorem AppImage.read_whole (metadata : ext2.Metadata) {inode : ext2.Inode} (hsize : inode.size = image.length) :
    ext2.read_whole metadata inode (APP_HEADER_SIZE + APP_MAX_MEMORY_SIZE) =
      ext2.read_whole metadata inode image.length := by
  unfold ext2.read_whole checked_usize
  rw [hsize]
  split
  · have hcap : decide (APP_HEADER_SIZE + APP_MAX_MEMORY_SIZE < image.length) = false :=
      decide_eq_false (Nat.not_lt.mpr himage.length_le)
    have hown : decide (image.length < image.length) = false := decide_eq_false (Nat.lt_irrefl _)
    have hlift : ∀ next : Nat → ext2.Reader (List UInt8), (liftM (Outcome.ok image.length : Outcome ext2.Ext2Error Nat) >>=
      next) = next image.length := fun _ => rfl
    rw [Outcome.okOr_some, hlift, hlift, hcap, hown]
  · rfl

end Accepted

/-- `parse_app_image` accepts the images that consist of a header and exactly the code and the data it
announces, within the limit on memory. Such an image is sliced into its code and its data, and it is no longer
than the cap that `load_from_ext2_with_arguments` passes to `read_file_vec`, which makes no difference to reading it. -/
theorem parse_app_image_accepts_format (image : List UInt8) (layout : AppLayout) :
    (parse_app_image image = .ok layout ↔ ∃ code data, AppImage image layout code data) ∧
    ∀ code data, AppImage image layout code data →
      (get_range image APP_HEADER_SIZE layout.data_offset = some code ∧
        get_range image layout.data_offset (layout.data_offset + layout.data_len) = some data) ∧
      (∀ active path arguments reservations, load_app_image active image path arguments reservations =
        load_segments active code data layout.bss_len layout.entry_offset path arguments reservations) ∧
      ∀ path, [0x2e, 0x61, 0x70, 0x70] <:+ path → ∃ limit, max_size path = some limit ∧ image.length ≤ limit ∧
        ∀ metadata inode, inode.size = image.length →
          ext2.read_whole metadata inode limit = ext2.read_whole metadata inode image.length := by
  refine ⟨parse_app_image_eq_ok, ?_⟩
  intro code data himage
  refine ⟨himage.get_range, himage.load_app_image, ?_⟩
  intro path hpath
  exact ⟨_, max_size_app hpath, himage.length_le, fun metadata inode hsize => himage.read_whole metadata hsize⟩

/-- One byte of code, two of data and 16 zeros behind them. -/
theorem parse_app_image_accepts_format_small :
    let image := app_header 0 1 2 16 ++ ([0xc3] ++ [7, 8])
    parse_app_image image = .ok { entry_offset := 0, code_len := 1, data_offset := 49, data_len := 2, bss_len := 16 } ∧
      get_range image 48 49 = some [0xc3] ∧ get_range image 49 51 = some [7, 8] := by
  intro image
  have himage : AppImage image ⟨0, 1, 49, 2, 16⟩ [0xc3] [7, 8] := ⟨rfl, rfl, rfl, rfl, by decide, by decide⟩
  have haccepts := parse_app_image_accepts_format image ⟨0, 1, 49, 2, 16⟩
  exact ⟨haccepts.1.mpr ⟨_, _, himage⟩, (haccepts.2 _ _ himage).1⟩

end leafos.user_program
