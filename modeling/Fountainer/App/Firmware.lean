import Fountainer.App.Hooks
import Fountainer.Library.Padded
import Fountainer.Library.Stable
import Fountainer.Python.Digest
import Fountainer.Python.Lemmas.Text

/-!
# The firmware folder (`server/ota.py`)

Versions in file names, their comparison, and the image that is offered to a device.
-/

namespace Fountainer

def dot : PyChar := .scalar '.'

/-! ## Versions -/

def startsDecimal : Str → Bool
  | c :: _ => isDecimal c
  | [] => false

/-- `_VERSION_RE.findall`: the match that has begun stands backwards, with the number of groups that
may still follow. -/
def findVersions : Option (Str × Nat) → Str → List Str
  | none, [] => []
  | some (m, _), [] => [m.reverse]
  | none, c :: s =>
      if isDecimal c then findVersions (some ([c], 3)) s else findVersions none s
  | some (m, k), c :: s =>
      if isDecimal c then findVersions (some (c :: m, k)) s
      else if c = dot ∧ 0 < k ∧ startsDecimal s then findVersions (some (c :: m, k - 1)) s
      else m.reverse :: findVersions none s

/-- `parse_version`. -/
def parseVersion (name : Str) : Option Str :=
  let found := findVersions none name
  let dotted := found.filter fun m => decide (dot ∈ m)
  (if dotted.isEmpty then found else dotted).getLast?

/-- `version_tuple`. -/
def versionTuple (ver : Str) : List Int := (ver.splitOn dot).map fun p => (intText p).getD 0

/-- `version_gt`. -/
def versionGt (a b : Str) : Bool := Padded.lt 0 (versionTuple b) (versionTuple a)

/-! ## Images -/

def crcByte (crc : Nat) (b : UInt8) : Nat :=
  (List.range 8).foldl (fun c _ => if c % 2 = 1 then 0xEDB88320 ^^^ (c / 2) else c / 2)
    (crc ^^^ b.toNat)

/-- `zlib.crc32`. -/
def crc32 (m : Bytes) : Nat := m.foldl crcByte 0xFFFFFFFF ^^^ 0xFFFFFFFF

/-- The files of the folder with their contents, in the order of the directory. -/
abbrev Folder := List (Str × Bytes)

/-- `sorted(self.directory.glob("*.bin"))`. -/
def Folder.binaries (files : Folder) : Folder :=
  (files.filter fun f => (py ".bin").isSuffixOf f.1).mergeSort fun a b => Str.le a.1 b.1

/-- `p.stem` of a name that ends in `.bin`. -/
def stem (name : Str) : Str := if name = py ".bin" then name else name.take (name.length - 4)

/-- The image of a file with a recognizable version. -/
def firmwareImage (file : Str × Bytes) : Option FirmwareImage :=
  (parseVersion (stem file.1)).map fun ver =>
    { version := ver, filename := file.1, size := file.2.length, crc32 := crc32 file.2
      sha256 := sha256Hex file.2 }

/-- `list_images`: newest first. -/
def listImages (files : Folder) : List FirmwareImage :=
  Stable.sort (fun im => OrderDual.toDual (versionTuple im.version))
    (files.binaries.filterMap firmwareImage)

/-- `latest`. -/
def latest (files : Folder) : Option FirmwareImage := (listImages files).head?

/-- `newer_than`; `split` exists only on texts. -/
def newerThan (files : Folder) (current : Json) : Except PyErr (Option FirmwareImage) :=
  match latest files with
  | none => .ok none
  | some im =>
      match current.or (.str (py "0")) with
      | .str cur => .ok (if versionGt im.version cur then some im else none)
      | _ => .error .attributeError

example : parseVersion (py "esp32-fountain-10.0") = some (py "10.0") := by decide +kernel

example : versionGt (py "1.10.0") (py "1.9.0") = true := by decide +kernel

example : firmwareImage (py "fountain-2.1.0.bin", [1, 2]) =
    some { version := py "2.1.0", filename := py "fountain-2.1.0.bin", size := 2, crc32 := 0xb6cc4292
           sha256 := py "a12871fee210fb8619291eaea194581cbd2531e4b23759d225f6806923f63222" } := by
  decide +kernel

/-! ## The version of a file name -/

/-- A digit, a dot and a digit in a row. -/
def Dotted (t : Str) : Prop :=
  ∃ a b, isDecimal a = true ∧ isDecimal b = true ∧ [a, dot, b] <:+: t

/-- A match that has begun may go on behind the text: it ends in a digit, or in a digit and a dot. -/
def OpenEnd (t : Str) : Prop :=
  ∃ q a, isDecimal a = true ∧ (t = q ++ [a] ∨ t = q ++ [a, dot])

/-- A match may begin or go on at the start of the text. -/
def OpenStart (t : Str) : Prop :=
  ∃ q a, isDecimal a = true ∧ (t = a :: q ∨ t = dot :: a :: q)

/-- Two to four groups of ASCII digits with dots between them. -/
def VersionText (w : Str) : Prop :=
  ∃ gs : List (List Char), 2 ≤ gs.length ∧ gs.length ≤ 4 ∧
    (∀ g ∈ gs, g ≠ [] ∧ ∀ c ∈ g, c.isDigit = true) ∧ w = Str.join [dot] (gs.map ofChars)

theorem not_isDecimal_dot : isDecimal dot = false := by decide +kernel

theorem Dotted.cons {t : Str} (c : PyChar) (h : Dotted t) : Dotted (c :: t) := by
  obtain ⟨a, b, ha, hb, ht⟩ := h
  exact ⟨a, b, ha, hb, ht.trans (List.suffix_cons c t).isInfix⟩

theorem OpenEnd.cons {t : Str} (c : PyChar) (h : OpenEnd t) : OpenEnd (c :: t) := by
  obtain ⟨q, a, ha, ht⟩ := h
  exact ⟨c :: q, a, ha, ht.imp (by rintro rfl; rfl) (by rintro rfl; rfl)⟩

/-- A match without a dot goes on over digits only. -/
theorem findVersions_undotted {p : Str} (r : Str) :
    (¬Dotted p → (OpenEnd p → r = []) → ∃ us : List Str, (∀ u ∈ us, dot ∉ u) ∧
      findVersions none (p ++ r) = us ++ findVersions none r) ∧
    ∀ d m, isDecimal d = true → dot ∉ m → ¬Dotted (d :: p) → (OpenEnd (d :: p) → r = []) →
      ∃ us : List Str, (∀ u ∈ us, dot ∉ u) ∧
        findVersions (some (m, 3)) (p ++ r) = us ++ findVersions none r := by
  induction p with
  | nil =>
      refine ⟨fun _ _ => ⟨[], by simp, rfl⟩, fun d m hd hm _ hr => ?_⟩
      cases hr ⟨[], d, hd, .inl rfl⟩
      exact ⟨[m.reverse], by simpa using hm, rfl⟩
  | cons c p ih =>
      obtain ⟨hnone, hsome⟩ := ih
      constructor
      · intro hp hr
        rw [List.cons_append, findVersions]
        split
        · rename_i hc
          refine hsome c [c] hc ?_ hp hr
          rintro h
          rw [← List.mem_singleton.mp h, not_isDecimal_dot] at hc
          cases hc
        · exact hnone (fun h => hp (h.cons c)) fun h => hr (h.cons c)
      · intro d m hd hm hp hr
        have hrest := hnone (fun h => hp ((h.cons c).cons d)) fun h => hr ((h.cons c).cons d)
        rw [List.cons_append, findVersions]
        split
        · rename_i hc
          refine hsome c (c :: m) hc ?_ (fun h => hp (h.cons d)) fun h => hr (h.cons d)
          rw [List.mem_cons, not_or]
          refine ⟨?_, hm⟩
          rintro rfl
          rw [not_isDecimal_dot] at hc
          cases hc
        · rw [if_neg]
          · obtain ⟨us, hus, heq⟩ := hrest
            exact ⟨m.reverse :: us, by simpa using ⟨hm, hus⟩, by rw [heq, List.cons_append]⟩
          · -- behind the dot there is no digit, in the text or after it
            rintro ⟨rfl, -, hstart⟩
            cases p with
            | nil =>
                cases hr ⟨[], d, hd, .inr rfl⟩
                cases hstart
            | cons e p => exact hp ⟨d, e, hd, hstart, ⟨[], p, rfl⟩⟩

theorem isDecimal_digit {c : Char} (h : c.isDigit = true) : isDecimal (.scalar c) = true := by
  rw [isDecimal, digitValue_digit h, Option.isSome_some]

theorem findVersions_digits {g : List Char} (hg : ∀ c ∈ g, c.isDigit = true) (m : Str) (k : Nat)
    (r : Str) :
    findVersions (some (m, k)) (ofChars g ++ r) =
      findVersions (some ((ofChars g).reverse ++ m, k)) r := by
  induction g generalizing m with
  | nil => rfl
  | cons c g ih =>
      have hc := isDecimal_digit (hg c List.mem_cons_self)
      have ih := ih (fun c hc => hg c (.tail _ hc)) (.scalar c :: m)
      rw [ofChars, List.map_cons, List.cons_append, findVersions, if_pos hc]
      simpa [ofChars] using ih

theorem findVersions_closed {s : Str} (hs : ¬OpenStart s) (m : Str) (k : Nat) :
    findVersions (some (m, k)) s = m.reverse :: findVersions none s := by
  cases s with
  | nil => rfl
  | cons c s =>
      have hc : ¬isDecimal c = true := fun hc => hs ⟨s, c, hc, .inl rfl⟩
      rw [findVersions, findVersions, if_neg hc, if_neg hc, if_neg]
      rintro ⟨rfl, -, hstart⟩
      cases s with
      | nil => cases hstart
      | cons e s => exact hs ⟨s, e, hstart, .inr rfl⟩

theorem findVersions_groups {gs : List (List Char)} {k : Nat} (hk : gs.length ≤ k)
    (hgs : ∀ g ∈ gs, g ≠ [] ∧ ∀ c ∈ g, c.isDigit = true) {s : Str} (hs : ¬OpenStart s) (m : Str) :
    findVersions (some (m, k)) ((gs.flatMap fun g => dot :: ofChars g) ++ s) =
      (m.reverse ++ gs.flatMap fun g => dot :: ofChars g) :: findVersions none s := by
  induction gs generalizing m k with
  | nil => simpa using findVersions_closed hs m k
  | cons g gs ih =>
      obtain ⟨hne, hdigits⟩ := hgs g List.mem_cons_self
      have hstart : startsDecimal (ofChars g ++ ((gs.flatMap fun g => dot :: ofChars g) ++ s)) = true := by
        cases g with
        | nil => exact absurd rfl hne
        | cons c g => exact isDecimal_digit (hdigits c List.mem_cons_self)
      have hk' : gs.length ≤ k - 1 := Nat.le_sub_one_of_lt hk
      have ih := ih hk' (fun g hg => hgs g (.tail _ hg)) ((ofChars g).reverse ++ dot :: m)
      rw [List.flatMap_cons, List.cons_append, List.cons_append, List.append_assoc, findVersions,
        if_neg (by rw [not_isDecimal_dot]; exact Bool.false_ne_true),
        if_pos ⟨rfl, Nat.zero_lt_of_lt hk, hstart⟩, findVersions_digits hdigits, ih]
      simp

theorem join_cons (sep g : Str) (gs : List Str) :
    Str.join sep (g :: gs) = g ++ gs.flatMap fun g => sep ++ g := by
  induction gs generalizing g with
  | nil => simp [Str.join]
  | cons h gs ih =>
      rw [List.flatMap_cons, List.append_assoc, ← ih]
      simp [Str.join, List.intercalate]

theorem findVersions_version {w s : Str} (hw : VersionText w) (hs : ¬OpenStart s) :
    findVersions none (w ++ s) = w :: findVersions none s ∧ dot ∈ w := by
  obtain ⟨gs, h2, h4, hgs, rfl⟩ := hw
  rcases gs with _ | ⟨g, gs⟩
  · cases h2
  obtain ⟨hne, hdigits⟩ := hgs g List.mem_cons_self
  have hrest := findVersions_groups (k := 3) (Nat.le_of_succ_le_succ h4)
    (fun g hg => hgs g (.tail _ hg)) hs (ofChars g).reverse
  have hw : Str.join [dot] ((g :: gs).map ofChars) =
      ofChars g ++ gs.flatMap fun g => dot :: ofChars g := by
    rw [List.map_cons, join_cons, List.flatMap_map]
    rfl
  rw [hw]
  constructor
  · rw [List.append_assoc]
    rcases g with _ | ⟨c, g⟩
    · exact absurd rfl hne
    have hc := isDecimal_digit (hdigits c List.mem_cons_self)
    have hg := findVersions_digits (fun c hc => hdigits c (.tail _ hc)) [.scalar c] 3
      ((gs.flatMap fun g => dot :: ofChars g) ++ s)
    have hcons : ofChars (c :: g) = .scalar c :: ofChars g := rfl
    have hrev : (ofChars (c :: g)).reverse = (ofChars g).reverse ++ [.scalar c] := by
      rw [hcons, List.reverse_cons]
    rw [hcons, List.cons_append, findVersions, if_pos hc, hg, ← hrev, hrest, List.reverse_reverse,
      hcons]
  · rcases gs with _ | ⟨g', gs⟩
    · exact absurd h2 (by simp)
    · simp

theorem parseVersion_recovers (p w s : Str) (hw : VersionText w) (hp : ¬OpenEnd p)
    (hs : ¬OpenStart s) (hpd : ¬Dotted p) (hsd : ¬Dotted s) :
    parseVersion (p ++ w ++ s) = some w := by
  obtain ⟨us, hus, hpre⟩ := (findVersions_undotted (w ++ s)).1 hpd fun h => absurd h hp
  obtain ⟨vs, hvs, hsuf⟩ := (findVersions_undotted (p := s) []).1 hsd fun _ => rfl
  obtain ⟨hver, hdot⟩ := findVersions_version hw hs
  rw [List.append_nil] at hsuf
  have hfound : findVersions none (p ++ w ++ s) = us ++ w :: vs := by
    rw [List.append_assoc, hpre, hver, hsuf]
    simp [findVersions]
  have hnone : ∀ {ts : List Str}, (∀ t ∈ ts, dot ∉ t) → ts.filter (fun m => decide (dot ∈ m)) = [] :=
    fun h => List.filter_eq_nil_iff.mpr fun t ht => by simpa using h t ht
  have hfilter : (us ++ w :: vs).filter (fun m => decide (dot ∈ m)) = [w] := by
    rw [List.filter_append, List.filter_cons_of_pos (by simpa using hdot), hnone hus, hnone hvs]
    rfl
  rw [parseVersion, hfound, hfilter]
  rfl

theorem not_dotted {t : Str} (h : dot ∉ t) : ¬Dotted t := by
  rintro ⟨a, b, -, -, ht⟩
  exact h (ht.mem (.tail _ List.mem_cons_self))

theorem not_openEnd {t : Str} {c : PyChar} (hc : isDecimal c = false) (hdot : c ≠ dot) :
    ¬OpenEnd (t ++ [c]) := by
  rintro ⟨q, a, ha, h | h⟩
  · have hlast := congrArg List.getLast? h
    simp only [List.getLast?_concat, Option.some.injEq] at hlast
    rw [hlast, ha] at hc
    cases hc
  · have hlast := congrArg List.getLast? h
    simp only [List.getLast?_append, List.getLast?_cons_cons, List.getLast?_singleton,
      Option.some_or, Option.some.injEq] at hlast
    exact hdot hlast

/-- The file `esp32-fountain-10.0-20260501.bin`. -/
theorem parseVersion_recovers_sample :
    parseVersion (py "esp32-fountain-" ++ py "10.0" ++ py "-20260501") = some (py "10.0") := by
  refine parseVersion_recovers _ _ _ ?_ ?_ ?_ (not_dotted (by decide)) (not_dotted (by decide))
  · exact ⟨["10".toList, "0".toList], by decide, by decide, by simp, by decide⟩
  · exact not_openEnd (t := py "esp32-fountain") (c := .scalar '-') (by decide +kernel) (by decide)
  · rintro ⟨q, a, ha, h | h⟩
    · cases h
      exact absurd ha (by decide +kernel)
    · cases h

/-! ## The offered image -/

theorem mem_findVersions {t : Str} : ∀ (st : Option (Str × Nat)),
    (∀ m k, st = some (m, k) → ∀ c ∈ m, isDecimal c = true ∨ c = dot) →
      ∀ u ∈ findVersions st t, ∀ c ∈ u, isDecimal c = true ∨ c = dot := by
  induction t with
  | nil =>
      rintro (_ | ⟨m, k⟩) hst u hu
      · cases hu
      · rw [findVersions, List.mem_singleton] at hu
        simpa [hu] using hst m k rfl
  | cons e t ih =>
      have hnew : ∀ {m : Str} {k : Nat}, (∀ c ∈ m, isDecimal c = true ∨ c = dot) →
          (isDecimal e = true ∨ e = dot) → ∀ m' k', some (e :: m, k) = some (m', k') →
            ∀ c ∈ m', isDecimal c = true ∨ c = dot := by
        rintro m k hm he m' k' heq
        cases heq
        exact List.forall_mem_cons.mpr ⟨he, hm⟩
      rintro (_ | ⟨m, k⟩) hst u hu
      · rw [findVersions] at hu
        split at hu
        · rename_i he
          exact ih _ (hnew (by simp) (.inl he)) u hu
        · exact ih none (by simp) u hu
      · have hm := hst m k rfl
        rw [findVersions] at hu
        split at hu
        · rename_i he
          exact ih _ (hnew hm (.inl he)) u hu
        · split at hu
          · rename_i he
            exact ih _ (hnew hm (.inr he.1)) u hu
          · rcases List.mem_cons.mp hu with rfl | hu
            · simpa using hm
            · exact ih none (by simp) u hu

theorem parseVersion_mem {name ver : Str} (h : parseVersion name = some ver) :
    ver ∈ findVersions none name := by
  have hmem := List.mem_of_getLast? h
  split at hmem
  · exact hmem
  · exact List.mem_of_mem_filter hmem

theorem parseInt_nonneg {s : Str} (h : PyChar.scalar '-' ∉ s) {i : Int} (hi : parseInt s = some i) :
    0 ≤ i := by
  unfold parseInt at hi
  dsimp only at hi
  split at hi
  · rename_i heq
    have hmem : PyChar.scalar '-' ∈ ((s.dropWhile isSpace).reverse.dropWhile isSpace).reverse := by
      rw [heq]
      exact List.mem_cons_self
    rw [List.mem_reverse] at hmem
    have hmem := List.mem_reverse.mp ((List.dropWhile_suffix _).mem hmem)
    exact absurd ((List.dropWhile_suffix _).mem hmem) h
  all_goals
    obtain ⟨n, -, rfl⟩ := Option.map_eq_some_iff.mp hi
    exact Int.natCast_nonneg n

theorem mem_of_mem_splitOn {s p : Str} {x c : PyChar} (hp : p ∈ s.splitOn x) (hc : c ∈ p) : c ∈ s := by
  have hs : [x].intercalate (s.splitOn x) = s := List.intercalate_splitOn x
  rw [← hs]
  clear hs
  generalize s.splitOn x = ps at hp
  cases ps with
  | nil => cases hp
  | cons q ps =>
      have h : [x].intercalate (q :: ps) = q ++ ps.flatMap fun g => [x] ++ g := join_cons [x] q ps
      rw [h, List.mem_append, List.mem_flatMap]
      rcases List.mem_cons.mp hp with rfl | hp
      · exact .inl hc
      · exact .inr ⟨p, hp, List.mem_append_right _ hc⟩

theorem firmwareImage_parts {file : Str × Bytes} {im : FirmwareImage} (h : firmwareImage file = some im) :
    ∀ i ∈ versionTuple im.version, 0 ≤ i := by
  obtain ⟨ver, hver, rfl⟩ := Option.map_eq_some_iff.mp h
  intro i hi
  obtain ⟨p, hp, rfl⟩ := List.mem_map.mp hi
  have hminus : PyChar.scalar '-' ∉ p := by
    intro hc
    have hver := mem_findVersions none (by simp) ver (parseVersion_mem hver) _ (mem_of_mem_splitOn hp hc)
    have hno : ¬(isDecimal (.scalar '-') = true ∨ PyChar.scalar '-' = dot) := by decide +kernel
    exact hno hver
  cases hint : intText p with
  | none => exact Int.le_refl 0
  | some i =>
      unfold intText at hint
      split at hint
      · cases hint
      · exact parseInt_nonneg hminus hint

theorem listImages_parts {files : Folder} {im : FirmwareImage} (h : im ∈ listImages files) :
    ∀ i ∈ versionTuple im.version, 0 ≤ i := by
  obtain ⟨file, -, him⟩ := List.mem_filterMap.mp ((Stable.sort_perm _ _).mem_iff.mp h)
  exact firmwareImage_parts him

theorem versionGt_iff {a b : Str} :
    versionGt a b = true ↔
      Padded.value 0 (versionTuple b) < Padded.value 0 (versionTuple a) := Padded.lt_iff

/-- The first image in the order of the list is also the greatest after padding. -/
theorem latest_greatest {files : Folder} {im : FirmwareImage} (h : latest files = some im) :
    im ∈ listImages files ∧ ∀ x ∈ listImages files, versionGt x.version im.version = false := by
  unfold latest at h
  have hmem : im ∈ listImages files := List.mem_of_mem_head? h
  have hsorted : (listImages files).Pairwise fun a b => versionTuple b.version ≤ versionTuple a.version :=
    Stable.sort_sorted (fun im : FirmwareImage => OrderDual.toDual (versionTuple im.version)) _
  refine ⟨hmem, fun x hx => ?_⟩
  have hle : versionTuple x.version ≤ versionTuple im.version := by
    cases himages : listImages files with
    | nil => simp [himages] at h
    | cons y ys =>
        rw [himages] at h hx hsorted
        cases h
        rcases List.mem_cons.mp hx with rfl | hx
        · exact le_refl _
        · exact List.rel_of_pairwise_cons hsorted hx
  have hnot := Padded.not_value_lt_of_le (listImages_parts hmem) hle
  exact Bool.eq_false_iff.mpr fun hgt => hnot (versionGt_iff.mp hgt)

/-- `current_version or "0"`. -/
def orZero (cur : Str) : Str := if cur.isEmpty then py "0" else cur

theorem newerThan_text (files : Folder) (cur : Str) :
    newerThan files (.str cur) =
      .ok ((latest files).filter fun im => versionGt im.version (orZero cur)) := by
  unfold newerThan
  cases latest files with
  | none => rfl
  | some im =>
      have hcur : (Json.str cur).or (.str (py "0")) = .str (orZero cur) := by
        unfold Json.or orZero
        cases cur <;> rfl
      simp [hcur, Option.filter]

theorem versionTuple_orZero (cur : Str) : versionTuple (orZero cur) = versionTuple cur := by
  unfold orZero
  split
  · rename_i h
    rw [List.isEmpty_iff.mp h]
    decide +kernel
  · rfl

theorem newerThan_ok {files : Folder} {cur : Str} {im : FirmwareImage} :
    newerThan files (.str cur) = .ok (some im) ↔
      latest files = some im ∧ versionGt im.version (orZero cur) = true := by
  rw [newerThan_text, Except.ok.injEq, Option.filter_eq_some_iff]

theorem newerThan_self {files : Folder} {im : FirmwareImage} (h : latest files = some im) :
    newerThan files (.str im.version) = .ok none := by
  rw [newerThan_text, h]
  have hself : versionGt im.version (orZero im.version) = false := by
    rw [versionGt, versionTuple_orZero]
    exact Bool.eq_false_iff.mpr fun hgt => lt_irrefl _ (Padded.lt_iff.mp hgt)
  simp [Option.filter, hself]

theorem versionGt_isStrictWeakOrder : IsStrictWeakOrder Str fun a b => versionGt a b = true := by
  have hpadded := Padded.isStrictWeakOrder (0 : Int)
  exact inferInstanceAs
    (IsStrictWeakOrder Str (Order.Preimage versionTuple (Function.swap fun l m => Padded.lt 0 l m = true)))

/-- An image is offered if some image is newer; it is a newest one, and once it is installed no other
offer follows. -/
theorem update_selection (files : Folder) (cur : Str) :
    (newerThan files (.str cur)).isOk = true ∧
      ((∃ im, newerThan files (.str cur) = .ok (some im)) ↔
        ∃ im ∈ listImages files, versionGt im.version (orZero cur) = true) ∧
      (∀ im, newerThan files (.str cur) = .ok (some im) →
        im ∈ listImages files ∧ versionGt im.version (orZero cur) = true ∧
        (∀ x ∈ listImages files, versionGt x.version im.version = false) ∧
        newerThan files (.str im.version) = .ok none ∧
        ∀ (cfg : Config) st s now msg,
          Dict.getOr msg (py "current_version") (.str []) = .str im.version →
            cfg.newerThan now = newerThan files →
              (onOtaCheck cfg st s now msg).reply =
                some (.send (py "ota_none") [] (Dict.get msg (py "msg_id")))) ∧
      IsStrictWeakOrder Str fun a b => versionGt a b = true := by
  refine ⟨by rw [newerThan_text]; rfl, ⟨?_, ?_⟩, ?_, versionGt_isStrictWeakOrder⟩
  · rintro ⟨im, h⟩
    obtain ⟨hlatest, hgt⟩ := newerThan_ok.mp h
    exact ⟨im, (latest_greatest hlatest).1, hgt⟩
  · rintro ⟨x, hx, hgt⟩
    cases hlatest : latest files with
    | none =>
        have hnil : listImages files = [] := List.head?_eq_none_iff.mp hlatest
        rw [hnil] at hx
        cases hx
    | some im =>
        -- the first image is not smaller than `x`
        have hle := (latest_greatest hlatest).2 x hx
        refine ⟨im, newerThan_ok.mpr ⟨hlatest, versionGt_iff.mpr ?_⟩⟩
        exact lt_of_lt_of_le (versionGt_iff.mp hgt)
          (le_of_not_gt fun hlt => Bool.eq_false_iff.mp hle (versionGt_iff.mpr hlt))
  · intro im h
    obtain ⟨hlatest, hgt⟩ := newerThan_ok.mp h
    obtain ⟨hmem, hmax⟩ := latest_greatest hlatest
    have hself := newerThan_self hlatest
    refine ⟨hmem, hgt, hmax, hself, fun cfg st s now msg hcur hcfg => ?_⟩
    simp only [onOtaCheck, hcur, hcfg, hself]
    split <;> rfl

end Fountainer
