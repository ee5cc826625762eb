import Ax88179Aroma.Module.Worker
import Mathlib.Data.List.Lemmas

/-!
# The configuration file

`load_config` reads `config.ini` with `fgets` into a buffer of 128 bytes and looks for the text of
each setting anywhere in what it got.  So a line is read in pieces of at most 127 bytes, and a piece
counts whether or not its line is a comment.

A setting is decided by the last piece that names it.  That is the last line which assigns it, as
long as every line is read like a whole and no comment names a setting.
-/

namespace Ax88179Aroma.Module

/-! ## The C library -/

def newline : UInt8 := 10

def ascii (text : String) : List UInt8 := text.toList.map fun c ↦ UInt8.ofNat c.toNat

/-- The bytes of a buffer up to its terminator. -/
def cString (b : List UInt8) : List UInt8 := b.takeWhile (· ≠ 0)

def strstr (b : List UInt8) (text : String) : Bool :=
  (cString b).tails.any fun suffix ↦ (ascii text).isPrefixOf suffix

/-- What `fgets` stores when `room` bytes are left, and what remains of the file. -/
def fgets : ℕ → List UInt8 → List UInt8 × List UInt8
  | 0, file => ([], file)
  | _ + 1, [] => ([], [])
  | room + 1, c :: file =>
    if c = newline then ([c], file)
    else (c :: (fgets room file).1, (fgets room file).2)

def isSpace (c : UInt8) : Bool := c = 32 ∨ 9 ≤ c ∧ c ≤ 13

def isDigit (c : UInt8) : Bool := 48 ≤ c ∧ c ≤ 57

def scanDigits (b : List UInt8) : Option ℤ :=
  let digits := b.takeWhile isDigit
  if digits = [] then none
  else some (digits.foldl (fun value c ↦ 10 * value + ((c.toNat : ℤ) - 48)) 0)

/-- `%d`.  A number outside the range of an `int` is saturated by the library, which the caller's
bounds do not tell from the number itself. -/
def scanInt (b : List UInt8) : Option ℤ :=
  match b.dropWhile isSpace with
  | 45 :: rest => (scanDigits rest).map (- ·)
  | 43 :: rest => scanDigits rest
  | rest => scanDigits rest

/-- `sscanf(b, "shim_trace=%d", &level)`, which matches at the start of the buffer only. -/
def scanTrace (b : List UInt8) : Option ℤ :=
  let key := ascii "shim_trace="
  if key.isPrefixOf (cString b) then scanInt ((cString b).drop key.length) else none

/-! ## The function -/

inductive Key where
  | mode
  | dns
  | route
  | nssl
  | ftpHandoff
  | wiiloadProxy
  | shimTrace
  deriving DecidableEq, Repr

/-- The two branches for a setting; the texts of the first are looked for first. -/
def flagOf (b : List UInt8) (first : List String) (firstValue : ℤ) (second : List String)
    (secondValue : ℤ) : Option ℤ :=
  if first.any (strstr b) then some firstValue
  else if second.any (strstr b) then some secondValue
  else none

def clampLevel (level : ℤ) : ℤ := if level < 0 then 0 else if level > 2 then 2 else level

/-- The value that a buffer gives to a setting. -/
def Key.read : Key → List UInt8 → Option ℤ
  | .mode, b => flagOf b ["mode=always"] 0 ["mode=keep_first"] 1
  | .dns, b => flagOf b ["dns=system"] 1 ["dns=ax"] 0
  | .route, b => flagOf b ["route=native"] 1 ["route=ax"] 0
  | .nssl, b => flagOf b ["nssl=bridge"] 1 ["nssl=native"] 0
  | .ftpHandoff, b => flagOf b ["ftp_handoff=on"] 1 ["ftp_handoff=off"] 0
  | .wiiloadProxy, b => flagOf b ["wiiload_proxy=on", "wiiload_handoff=on"] 1
      ["wiiload_proxy=off", "wiiload_handoff=off"] 0
  | .shimTrace, b => (scanTrace b).map clampLevel

/-- The body of the loop of `load_config`. -/
def readBuffer (config : ModuleConfig) (b : List UInt8) : ModuleConfig :=
  { config with
    keepFirst := (Key.mode.read b).getD config.keepFirst
    systemDns := (Key.dns.read b).getD config.systemDns
    forceNative := (Key.route.read b).getD config.forceNative
    nsslBridge := (Key.nssl.read b).getD config.nsslBridge
    ftpHandoff := (Key.ftpHandoff.read b).getD config.ftpHandoff
    wiiloadProxy := (Key.wiiloadProxy.read b).getD config.wiiloadProxy
    shimTrace := (Key.shimTrace.read b).getD config.shimTrace }

/-- The loop of `load_config`: `fgets` fails at the end of the file. -/
def loadLoop : ℕ → List UInt8 → ModuleConfig → ModuleConfig
  | 0, _, config => config
  | _ + 1, [], config => config
  | fuel + 1, file, config =>
    loadLoop fuel (fgets 127 file).2 (readBuffer config (fgets 127 file).1)

/-- `load_config` on a file that was found; each turn takes at least one byte of it. -/
def loadConfig (config : ModuleConfig) (file : List UInt8) : ModuleConfig :=
  loadLoop file.length file config

/-! ## Lines -/

/-- The lines of a file, each with its newline. -/
def splitLines : List UInt8 → List (List UInt8)
  | [] => []
  | c :: file =>
    if c = newline then [c] :: splitLines file
    else
      match splitLines file with
      | [] => [[c]]
      | line :: lines => (c :: line) :: lines

def isComment (line : List UInt8) : Bool :=
  (line.dropWhile fun c ↦ c = 32 ∨ c = 9).head? = some 35

/-- The file without its comment lines. -/
def uncomment (file : List UInt8) : List UInt8 :=
  ((splitLines file).filter fun line ↦ !isComment line).flatten

def ModuleConfig.get (config : ModuleConfig) : Key → ℤ
  | .mode => config.keepFirst
  | .dns => config.systemDns
  | .route => config.forceNative
  | .nssl => config.nsslBridge
  | .ftpHandoff => config.ftpHandoff
  | .wiiloadProxy => config.wiiloadProxy
  | .shimTrace => config.shimTrace

/-- Comments have no effect, and the last line that assigns a setting decides it. -/
def Meets (config : ModuleConfig) (file : List UInt8) : Prop :=
  ∀ key : Key,
    (loadConfig config file).get key = (loadConfig config (uncomment file)).get key ∧
    (loadConfig config file).get key =
      ((((splitLines file).filter fun line ↦ !isComment line).filterMap
        key.read).getLast?).getD (config.get key)

/-! ## Pieces -/

/-- The buffers that the loop of `load_config` gets. -/
def piecesLoop : ℕ → List UInt8 → List (List UInt8)
  | 0, _ => []
  | _ + 1, [] => []
  | fuel + 1, file => (fgets 127 file).1 :: piecesLoop fuel (fgets 127 file).2

def pieces (file : List UInt8) : List (List UInt8) := piecesLoop file.length file

theorem loadLoop_eq_foldl (fuel : ℕ) (file : List UInt8) (config : ModuleConfig) :
    loadLoop fuel file config = (piecesLoop fuel file).foldl readBuffer config := by
  induction fuel generalizing file config with
  | zero => rfl
  | succ fuel ih =>
    cases file with
    | nil => rfl
    | cons c file => exact ih _ _

theorem length_fgets (room : ℕ) (file : List UInt8) :
    (fgets room file).1.length + (fgets room file).2.length = file.length := by
  induction room generalizing file with
  | zero => exact Nat.zero_add _
  | succ room ih =>
    cases file with
    | nil => rfl
    | cons c file =>
      rw [fgets]
      split
      · exact Nat.add_comm _ _
      · have hrest := ih file
        simp only [List.length_cons]
        omega

/-- A turn takes a byte of the file. -/
theorem length_fgets_lt (room : ℕ) (c : UInt8) (file : List UInt8) :
    (fgets (room + 1) (c :: file)).2.length ≤ file.length := by
  rw [fgets]
  split
  · exact Nat.le_refl _
  · have hlength := length_fgets room file
    dsimp only
    omega

/-- Turns beyond the length of the file find its end. -/
theorem piecesLoop_eq (fuel : ℕ) (file : List UInt8) (h : file.length ≤ fuel) :
    piecesLoop fuel file = pieces file := by
  have hgeneral : ∀ (fuel other : ℕ) (file : List UInt8), file.length ≤ fuel →
      file.length ≤ other → piecesLoop fuel file = piecesLoop other file := by
    intro fuel
    induction fuel with
    | zero =>
      intro other file hfuel _
      obtain rfl := List.length_eq_zero_iff.mp (Nat.le_zero.mp hfuel)
      cases other <;> rfl
    | succ fuel ih =>
      intro other file hfuel hother
      cases file with
      | nil => cases other <;> rfl
      | cons c file =>
        cases other with
        | zero => exact absurd hother (Nat.not_succ_le_zero _)
        | succ other =>
          have hshorter := length_fgets_lt 126 c file
          refine congrArg _ (ih other _ ?_ ?_)
          · exact hshorter.trans (Nat.le_of_succ_le_succ hfuel)
          · exact hshorter.trans (Nat.le_of_succ_le_succ hother)
  exact hgeneral fuel file.length file h (Nat.le_refl _)

theorem pieces_cons (c : UInt8) (file : List UInt8) :
    pieces (c :: file) = (fgets 127 (c :: file)).1 :: pieces (fgets 127 (c :: file)).2 :=
  congrArg _ (piecesLoop_eq _ _ (length_fgets_lt 126 c file))

/-! ### Lines are read one by one -/

/-- The text ends with a newline. -/
def Ended (text : List UInt8) : Prop := text.getLast? = some newline

theorem Ended.tail {c : UInt8} {text : List UInt8} (h : Ended (c :: text))
    (hne : c ≠ newline ∨ text ≠ []) : Ended text := by
  cases text with
  | nil =>
    cases hne with
    | inl hc => exact absurd (Option.some.inj h) hc
    | inr hempty => exact absurd rfl hempty
  | cons d text => exact h

/-- A call of `fgets` does not look behind a newline. -/
theorem fgets_append (room : ℕ) {text : List UInt8} (htext : text = [] ∨ Ended text)
    (hne : text ≠ []) (rest : List UInt8) :
    fgets room (text ++ rest) = ((fgets room text).1, (fgets room text).2 ++ rest) ∧
      ((fgets room text).2 = [] ∨ Ended (fgets room text).2) := by
  induction room generalizing text with
  | zero => exact ⟨rfl, htext⟩
  | succ room ih =>
    cases text with
    | nil => exact absurd rfl hne
    | cons c text =>
      have hended : Ended (c :: text) := htext.resolve_left hne
      rw [List.cons_append, fgets, fgets]
      split
      · refine ⟨rfl, ?_⟩
        by_cases hempty : text = []
        · exact .inl hempty
        · exact .inr (hended.tail (.inr hempty))
      · rename_i hc
        have htail : Ended text := hended.tail (.inl hc)
        have hnonempty : text ≠ [] := by
          rintro rfl
          cases htail
        obtain ⟨happend, hrest⟩ := ih (.inr htail) hnonempty
        rw [happend]
        exact ⟨rfl, hrest⟩

theorem pieces_append {text : List UInt8} (htext : text = [] ∨ Ended text) (rest : List UInt8) :
    pieces (text ++ rest) = pieces text ++ pieces rest := by
  induction hlength : text.length using Nat.strong_induction_on generalizing text with
  | _ length ih =>
    cases text with
    | nil => rfl
    | cons c text =>
      obtain ⟨happend, hrest⟩ := fgets_append 127 htext (List.cons_ne_nil c text) rest
      rw [List.cons_append] at happend ⊢
      rw [pieces_cons, pieces_cons, happend, List.cons_append]
      have hshorter := length_fgets_lt 126 c text
      refine congrArg _ (ih _ ?_ hrest rfl)
      rw [← hlength]
      exact Nat.lt_succ_of_le hshorter

/-- Only the last line may lack its newline. -/
def WellLined (lines : List (List UInt8)) : Prop := lines.Pairwise fun line _ ↦ Ended line

theorem pieces_flatten {lines : List (List UInt8)} (h : WellLined lines) :
    pieces lines.flatten = lines.flatMap pieces := by
  induction lines with
  | nil => rfl
  | cons line lines ih =>
    obtain ⟨hfirst, hrest⟩ := List.pairwise_cons.mp h
    rw [List.flatMap_cons, ← ih hrest, List.flatten_cons]
    cases lines with
    | nil => rw [List.flatten_nil, List.append_nil]; exact (List.append_nil _).symm
    | cons next lines => exact pieces_append (.inr (hfirst next List.mem_cons_self)) _

theorem flatten_splitLines (file : List UInt8) : (splitLines file).flatten = file := by
  induction file with
  | nil => rfl
  | cons c file ih =>
    rw [splitLines]
    split
    · rw [List.flatten_cons, ih]
      rfl
    · split
      · rename_i hnone
        rw [hnone] at ih
        rw [← ih]
        rfl
      · rename_i line lines hlines
        rw [hlines, List.flatten_cons] at ih
        rw [List.flatten_cons, List.cons_append, ih]

theorem wellLined_splitLines (file : List UInt8) : WellLined (splitLines file) := by
  induction file with
  | nil => exact List.Pairwise.nil
  | cons c file ih =>
    rw [splitLines]
    split
    · rename_i hc
      exact List.pairwise_cons.mpr ⟨fun _ _ ↦ congrArg some hc, ih⟩
    · split
      · exact List.pairwise_singleton _ _
      · rename_i line lines hlines
        rw [hlines] at ih
        obtain ⟨hfirst, hrest⟩ := List.pairwise_cons.mp ih
        refine List.pairwise_cons.mpr ⟨fun other hother ↦ ?_, hrest⟩
        have hended : line.getLast? = some newline := hfirst other hother
        cases line with
        | nil => cases hended
        | cons d line => exact hended

theorem splitLines_append {text : List UInt8} (h : Ended text) (rest : List UInt8) :
    splitLines (text ++ rest) = splitLines text ++ splitLines rest := by
  induction text with
  | nil => cases h
  | cons c text ih =>
    rw [List.cons_append, splitLines, splitLines]
    split
    · by_cases hempty : text = []
      · rw [hempty]
        rfl
      · rw [ih (h.tail (.inr hempty))]
        rfl
    · rename_i hc
      have htail : Ended text := h.tail (.inl hc)
      rw [ih htail]
      cases hlines : splitLines text with
      | nil =>
        have hflat := flatten_splitLines text
        rw [hlines] at hflat
        rw [← hflat] at htail
        cases htail
      | cons line lines => rfl

/-! ## What is read -/

/-- The last buffer that names a setting decides it. -/
theorem get_foldl_readBuffer (key : Key) (buffers : List (List UInt8)) (config : ModuleConfig) :
    (buffers.foldl readBuffer config).get key =
      ((buffers.filterMap key.read).getLast?).getD (config.get key) := by
  induction buffers generalizing config with
  | nil => rfl
  | cons b buffers ih =>
    have hread : (readBuffer config b).get key = (key.read b).getD (config.get key) := by
      cases key <;> rfl
    rw [List.foldl_cons, ih, hread]
    cases hb : key.read b with
    | none => rw [List.filterMap_cons_none hb]; rfl
    | some value =>
      rw [List.filterMap_cons_some hb, List.getLast?_cons]
      rfl

/-- What the pieces of a line say about a setting. -/
def lineReading (key : Key) (line : List UInt8) : Option ℤ :=
  ((pieces line).filterMap key.read).getLast?

/-- The last line with a reading has the last reading. -/
theorem getLast_flatMap_pieces (key : Key) (lines : List (List UInt8)) :
    ((lines.flatMap pieces).filterMap key.read).getLast? =
      (lines.filterMap (lineReading key)).getLast? := by
  induction lines with
  | nil => rfl
  | cons line lines ih =>
    rw [List.flatMap_cons, List.filterMap_append, List.getLast?_append, ih]
    change Option.or _ (lineReading key line) = _
    cases hline : lineReading key line with
    | none => rw [List.filterMap_cons_none hline, Option.or_none]
    | some value =>
      rw [List.filterMap_cons_some hline, List.getLast?_cons]
      cases (lines.filterMap (lineReading key)).getLast? <;> rfl

theorem get_loadConfig_flatten (key : Key) {lines : List (List UInt8)} (h : WellLined lines)
    (config : ModuleConfig) :
    (loadConfig config lines.flatten).get key =
      ((lines.filterMap (lineReading key)).getLast?).getD (config.get key) := by
  rw [loadConfig, loadLoop_eq_foldl, ← getLast_flatMap_pieces, ← pieces_flatten h]
  exact get_foldl_readBuffer key _ config

/-- The settings by lines. -/
theorem get_loadConfig (key : Key) (file : List UInt8) (config : ModuleConfig) :
    (loadConfig config file).get key =
      (((splitLines file).filterMap (lineReading key)).getLast?).getD (config.get key) := by
  have hlines := get_loadConfig_flatten key (wellLined_splitLines file) config
  rw [flatten_splitLines] at hlines
  exact hlines

theorem get_loadConfig_uncomment (key : Key) (file : List UInt8) (config : ModuleConfig) :
    (loadConfig config (uncomment file)).get key =
      ((((splitLines file).filter fun line ↦ !isComment line).filterMap
        (lineReading key)).getLast?).getD (config.get key) :=
  get_loadConfig_flatten key ((wellLined_splitLines file).filter _) config

/-! ## Harmless lines -/

/-- A comment names no setting in any of its pieces, and the pieces of another line say what the
line says. -/
def Harmless (line : List UInt8) : Prop :=
  ∀ key : Key, lineReading key line = if isComment line then none else key.read line

theorem meets_of_harmless (config : ModuleConfig) {file : List UInt8}
    (h : ∀ line ∈ splitLines file, Harmless line) : Meets config file := by
  intro key
  have hkept : ∀ lines : List (List UInt8), (∀ line ∈ lines, Harmless line) →
      lines.filterMap (lineReading key) =
        (lines.filter fun line ↦ !isComment line).filterMap key.read := by
    intro lines hlines
    induction lines with
    | nil => rfl
    | cons line lines ih =>
      have hline := hlines line List.mem_cons_self key
      have hrest := ih fun other hother ↦ hlines other (List.mem_cons_of_mem line hother)
      rw [List.filterMap_cons, List.filter_cons, hline, hrest]
      cases isComment line with
      | true => rfl
      | false => rw [if_neg Bool.false_ne_true, Bool.not_false, if_pos rfl, List.filterMap_cons]
  have hfiltered := hkept ((splitLines file).filter fun line ↦ !isComment line)
    fun line hline ↦ h line (List.mem_of_mem_filter hline)
  rw [List.filter_filter] at hfiltered
  rw [get_loadConfig, get_loadConfig_uncomment, hkept _ h, hfiltered]
  simp only [Bool.and_self, and_self]

/-- An assignment as the shipped file has it. -/
def plainLine : Key → Bool → List UInt8
  | .mode, value => ascii (if value then "mode=keep_first\n" else "mode=always\n")
  | .dns, value => ascii (if value then "dns=system\n" else "dns=ax\n")
  | .route, value => ascii (if value then "route=native\n" else "route=ax\n")
  | .nssl, value => ascii (if value then "nssl=bridge\n" else "nssl=native\n")
  | .ftpHandoff, value => ascii (if value then "ftp_handoff=on\n" else "ftp_handoff=off\n")
  | .wiiloadProxy, value => ascii (if value then "wiiload_proxy=on\n" else "wiiload_proxy=off\n")
  | .shimTrace, value => ascii (if value then "shim_trace=1\n" else "shim_trace=0\n")

theorem read_plainLine (key : Key) (value : Bool) :
    key.read (plainLine key value) = some (if value then 1 else 0) := by
  cases key <;> cases value <;> decide

theorem plainLine_line (key : Key) (value : Bool) :
    isComment (plainLine key value) = false ∧ Ended (plainLine key value) ∧
      splitLines (plainLine key value) = [plainLine key value] ∧
      pieces (plainLine key value) = [plainLine key value] := by
  cases key <;> cases value <;> exact ⟨rfl, rfl, rfl, rfl⟩

theorem lineReading_of_piece {line : List UInt8} (h : pieces line = [line]) (key : Key) :
    lineReading key line = key.read line := by
  rw [lineReading, h, List.filterMap_cons]
  cases key.read line <;> rfl

/-- The settings of a file of two lines. -/
theorem get_loadConfig_two {key : Key} {first line : List UInt8}
    (hlines : splitLines (first ++ line) = [first, line]) {value : ℤ}
    (hfirst : lineReading key first = some value) (config : ModuleConfig) :
    (loadConfig config (first ++ line)).get key = (lineReading key line).getD value := by
  rw [get_loadConfig, hlines, List.filterMap_cons_some hfirst, List.filterMap_cons]
  cases lineReading key line <;> rfl

/-- Harmless lines make a file that is read as it should be, and every line that is not harmless
spoils a file of one plain assignment and itself. -/
theorem loadConfig_meets (config : ModuleConfig) :
    (∀ file, (∀ line ∈ splitLines file, Harmless line) → Meets config file) ∧
    ∀ line, splitLines line = [line] → ¬ Harmless line → ∃ key value,
      splitLines (plainLine key value ++ line) = [plainLine key value, line] ∧
        ¬ Meets config (plainLine key value ++ line) := by
  refine ⟨fun file ↦ meets_of_harmless config, fun line hline hharm ↦ ?_⟩
  obtain ⟨key, hkey⟩ := not_forall.mp hharm
  have hplain : ∀ value, splitLines (plainLine key value ++ line) = [plainLine key value, line] :=
    fun value ↦ by
      obtain ⟨-, hended, hsplit, -⟩ := plainLine_line key value
      rw [splitLines_append hended, hsplit, hline]
      rfl
  have hmeets : ∀ value : Bool, Meets config (plainLine key value ++ line) →
      (lineReading key line).getD (if value then 1 else 0) =
        (if isComment line then none else key.read line).getD (if value then 1 else 0) := by
    intro value hmeets
    obtain ⟨hcomment, -, -, hpieces⟩ := plainLine_line key value
    have hread := read_plainLine key value
    have hdecided := (hmeets key).2
    rw [get_loadConfig_two (hplain value) ((lineReading_of_piece hpieces key).trans hread),
      hplain value, List.filter_cons_of_pos (by rw [hcomment]; rfl), List.filterMap_cons_some hread,
      List.filter_cons] at hdecided
    rw [hdecided]
    cases isComment line with
    | true => rfl
    | false =>
      rw [Bool.not_false, if_pos rfl, List.filter_nil, List.filterMap_cons]
      cases key.read line <;> rfl
  have hother : ∀ named : ℤ, ∃ value : Bool, (if value then (1 : ℤ) else 0) ≠ named := fun named ↦ by
    by_cases hzero : named = 0
    · exact ⟨true, by rw [hzero]; decide⟩
    · exact ⟨false, fun h ↦ hzero h.symm⟩
  -- The line and its pieces disagree, so one of them names a value; the assignment names another.
  cases hpieces : lineReading key line with
  | some named =>
    obtain ⟨value, hvalue⟩ := hother named
    refine ⟨key, value, hplain value, fun h ↦ ?_⟩
    have hsame := hmeets value h
    rw [hpieces] at hsame hkey
    cases hline : (if isComment line then none else key.read line) with
    | none =>
      rw [hline] at hsame
      exact hvalue hsame.symm
    | some assigned =>
      rw [hline] at hsame hkey
      exact hkey (congrArg some hsame)
  | none =>
    cases hline : (if isComment line then none else key.read line) with
    | none => exact absurd (hpieces.trans hline.symm) hkey
    | some assigned =>
      obtain ⟨value, hvalue⟩ := hother assigned
      refine ⟨key, value, hplain value, fun h ↦ ?_⟩
      have hsame := hmeets value h
      rw [hpieces, hline] at hsame
      exact hvalue hsame

/-- A commented line decides the mode. -/
theorem commented_mode_not_meets : ¬ Meets {} (ascii "# mode=always\n") := by
  intro hmeets
  have hmode := (hmeets .mode).1
  exact absurd hmode (by decide)

/-- A commented heading before an assignment. -/
theorem loadConfig_meets_heading :
    let file := ascii "# DHCP mode:\nmode=always\n"
    Meets {} file ∧ (loadConfig {} file).get .mode = 0 := by
  refine ⟨(loadConfig_meets {}).1 _ fun line hline key ↦ ?_, by decide⟩
  have hlines : line = ascii "# DHCP mode:\n" ∨ line = ascii "mode=always\n" := by
    simpa using (show line ∈ [ascii "# DHCP mode:\n", ascii "mode=always\n"] from hline)
  rcases hlines with rfl | rfl <;> cases key <;> decide

end Ax88179Aroma.Module
