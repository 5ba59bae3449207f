import Fountainer.App.Firmware
import Fountainer.Python.Lemmas.Dict
import Fountainer.Python.Lemmas.Url

/-!
# The download of an offered image (`server/http_firmware.py`)

The offer names the image by a URL; the firmware HTTP server resolves the path of that URL to a file
of the firmware folder.
-/

namespace Fountainer

/-- Every byte as a character (iso-8859-1). -/
def latin1 (bs : Bytes) : Str := bs.map fun b => ofCode b.toNat

/-- What the HTTP server sends for a request target; it decodes the request line as iso-8859-1. -/
def Folder.served (files : Folder) (target : Str) : Option Bytes :=
  match target.encode with
  | .ok line => match translatePath (latin1 line) with
      | [name] => files.lookup name
      | _ => none
  | .error _ => none

/-- An ASCII text is read as it was sent. -/
theorem latin1_encode {s : Str} (h : ∀ c ∈ s, c.ord < 0x80) : ∃ line, s.encode = .ok line ∧ latin1 line = s := by
  induction s with
  | nil => exact ⟨[], rfl, rfl⟩
  | cons c s ih =>
      obtain ⟨line, hline, hs⟩ := ih fun c hc => h c (List.mem_cons_of_mem _ hc)
      have hc := h c List.mem_cons_self
      refine ⟨UInt8.ofNat c.ord :: line, ?_, ?_⟩
      · rw [Str.encode, PyChar.encode_ascii hc, hline]
        rfl
      · rw [latin1, List.map_cons, ofCode_ord hc, ← latin1, hs]

theorem mem_listImages {files : Folder} {im : FirmwareImage} :
    im ∈ listImages files ↔
      ∃ file ∈ files, (py ".bin").isSuffixOf file.1 = true ∧ firmwareImage file = some im := by
  have hsort : ∀ file, file ∈ files.binaries ↔
      file ∈ files ∧ (py ".bin").isSuffixOf file.1 = true := by
    intro file
    rw [Folder.binaries, (List.mergeSort_perm _ _).mem_iff, List.mem_filter]
  rw [listImages, (Stable.sort_perm _ _).mem_iff, List.mem_filterMap]
  constructor
  · rintro ⟨file, hfile, him⟩
    obtain ⟨hmem, hsuffix⟩ := (hsort file).mp hfile
    exact ⟨file, hmem, hsuffix, him⟩
  · rintro ⟨file, hmem, hsuffix, him⟩
    exact ⟨file, (hsort file).mpr ⟨hmem, hsuffix⟩, him⟩

theorem listImages_binary {files : Folder} {im : FirmwareImage} (h : im ∈ listImages files) :
    ∃ content, (im.filename, content) ∈ files ∧ py ".bin" <:+ im.filename ∧
      im.size = content.length ∧ im.sha256 = sha256Hex content := by
  obtain ⟨file, hmem, hsuffix, him⟩ := mem_listImages.mp h
  obtain ⟨ver, -, rfl⟩ := Option.map_eq_some_iff.mp him
  exact ⟨file.2, hmem, List.isSuffixOf_iff_suffix.mp hsuffix, rfl, rfl⟩

/-- The newest image of a folder is one of its files. -/
theorem latest_of_newerThan {files : Folder} {current : Json} {im : FirmwareImage}
    (h : newerThan files current = .ok (some im)) :
    latest files = some im ∧ ∃ content, (im.filename, content) ∈ files ∧ im.sha256 = sha256Hex content := by
  have hlatest : latest files = some im := by
    unfold newerThan at h
    split at h
    · cases h
    · split at h
      · split at h
        · rename_i hlatest _ _ _ _
          cases h
          exact hlatest
        · cases h
      · cases h
  obtain ⟨content, hmem, -, -, hsha⟩ := listImages_binary (latest_greatest hlatest).1
  exact ⟨hlatest, content, hmem, hsha⟩

/-- A name that ends in `.bin` is a path component of its own. -/
theorem binary_component {name : Str} (h : py ".bin" <:+ name) :
    name ≠ [] ∧ name ≠ py "." ∧ name ≠ py ".." := by
  have hlen : 4 ≤ name.length := h.length_le
  refine ⟨?_, ?_, ?_⟩ <;> rintro rfl <;> exact absurd hlen (by decide)

theorem offered_url (cfg : Config) (im : FirmwareImage) (mandatory : Bool) :
    Dict.get (im.otaAvailableBody (cfg.firmwareUrl im.filename) mandatory) (py "url") =
      .str (cfg.publicBaseUrl ++ slash :: im.filename) := by
  rw [Config.firmwareUrl, List.append_assoc]
  rfl

/-- The offered URL names the attested file exactly when the file name is plain. -/
theorem offered_file_iff (files : Folder) (cfg : Config) (im : FirmwareImage)
    (h : im ∈ listImages files) :
    ∃ target, Dict.get (im.otaAvailableBody (cfg.firmwareUrl im.filename) cfg.mandatoryOta)
        (py "url") = .str (cfg.publicBaseUrl ++ target) ∧
      (translatePath target = [im.filename] ↔ im.filename.Plain) := by
  obtain ⟨content, -, hsuffix, -⟩ := listImages_binary h
  exact ⟨slash :: im.filename, offered_url cfg im cfg.mandatoryOta,
    translatePath_name_iff (binary_component hsuffix)⟩

/-- Two images, one of them under a name with a query. -/
def queryFolder : Folder := [(py "fountain-1.9.0.bin", [1]), (py "fountain-1.9.0.bin?v=2.0.0.bin", [2])]

def queryConfig : Config where
  registry := ⟨[], by simp⟩
  newerThan _ := newerThan queryFolder
  publicBaseUrl := py "https://host:8080"

def imageOf (ver name : Str) (content : Bytes) : FirmwareImage :=
  { version := ver, filename := name, size := content.length, crc32 := crc32 content
    sha256 := sha256Hex content }

theorem offered_file_iff_sample :
    ∃ target, Dict.get ((imageOf (py "1.9.0") (py "fountain-1.9.0.bin") [1]).otaAvailableBody
        (queryConfig.firmwareUrl (py "fountain-1.9.0.bin")) queryConfig.mandatoryOta) (py "url") =
        .str (queryConfig.publicBaseUrl ++ target) ∧
      (translatePath target = [py "fountain-1.9.0.bin"] ↔ Str.Plain (py "fountain-1.9.0.bin")) :=
  offered_file_iff queryFolder queryConfig (imageOf (py "1.9.0") (py "fountain-1.9.0.bin") [1])
    (mem_listImages.mpr ⟨(py "fountain-1.9.0.bin", [1]), by simp [queryFolder], by decide,
      by decide +kernel⟩)

/-- The URL of the newer image downloads the other file. -/
theorem offered_other_file :
    ∃ im ∈ listImages queryFolder,
      Dict.get (im.otaAvailableBody (queryConfig.firmwareUrl im.filename) queryConfig.mandatoryOta)
        (py "url") = .str (queryConfig.publicBaseUrl ++ py "/fountain-1.9.0.bin?v=2.0.0.bin") ∧
      im.filename = py "fountain-1.9.0.bin?v=2.0.0.bin" ∧
      translatePath (py "/fountain-1.9.0.bin?v=2.0.0.bin") = [py "fountain-1.9.0.bin"] ∧
      queryFolder.served (py "/fountain-1.9.0.bin?v=2.0.0.bin") = some [1] ∧
      im.sha256 ≠ sha256Hex [1] := by
  refine ⟨imageOf (py "2.0.0") (py "fountain-1.9.0.bin?v=2.0.0.bin") [2], mem_listImages.mpr
    ⟨(py "fountain-1.9.0.bin?v=2.0.0.bin", [2]), by simp [queryFolder], by decide, by decide +kernel⟩,
    ?_⟩
  decide +kernel

/-- The names of a folder are distinct, and what a plain ASCII name downloads is what was attested. -/
theorem served_attested {files : Folder} (hnames : (files.map Prod.fst).Nodup) {im : FirmwareImage}
    (h : im ∈ listImages files) (hplain : im.filename.Plain) (hascii : ∀ c ∈ im.filename, c.ord < 0x80) :
    ∃ content, files.served (slash :: im.filename) = some content ∧
      im.size = content.length ∧ im.sha256 = sha256Hex content := by
  obtain ⟨content, hmem, hsuffix, hsize, hsha⟩ := listImages_binary h
  refine ⟨content, ?_, hsize, hsha⟩
  have hresolved := (translatePath_name_iff (binary_component hsuffix)).mpr hplain
  obtain ⟨line, hline, hread⟩ := latin1_encode (s := slash :: im.filename)
    (List.forall_mem_cons.mpr ⟨by decide, hascii⟩)
  simp only [Folder.served, hline, hread, hresolved]
  exact lookup_of_mem hnames hmem

end Fountainer
