import FmSdrTuner.Config.Sections
import FmSdrTuner.XdrServer.Effects

/-! # Config: loading a file

    `Config::loadFromFile` reads a file line by line: it cuts off comments,
    keeps the name of the section it is in, and gives each `key=value` line
    to the section; `Reads` is the grammar of a line. What a file does to
    the configuration is what its entries do: a field ends with the value
    of the last entry for it that can be read, and every checked field
    stays in its domain. -/

namespace FmSdrTuner

namespace Config

variable {δ : Type} (D : Doubles δ)

/-! ### The loader -/

/-- What `loadFromFile` makes of a line. -/
inductive IniLine where
  | blank
  | header (name : Text)
  | malformed
  | entry (key value : Text)

/-- The body of the loop, up to the assignment. -/
def readLine (line : Text) : IniLine :=
  let line := trim (line.takeWhile fun c => c ≠ '#' ∧ c ≠ ';')
  if line.isEmpty then .blank
  else if line.head? = some '[' ∧ line.getLast? = some ']' then
    .header (toLower (trim ((line.drop 1).take (line.length - 2))))
  else if '=' ∈ line then
    .entry (toLower (trim (line.takeWhile (· ≠ '='))))
      (trim ((line.dropWhile (· ≠ '=')).drop 1))
  else .malformed

/-- The lines that `std::getline` returns; there is none behind the last
    line break. -/
def getlines (content : Text) : List Text :=
  let parts := content.splitOn '\n'
  if parts.getLast? = some [] then parts.dropLast else parts

/-- One pass of the loop, over the section and the configuration. -/
def loadLine (s : Text × Config δ) (line : Text) : Text × Config δ :=
  match readLine line with
  | .header name => (name, s.2)
  | .entry key value => (s.1, parseSection D s.1 key value s.2)
  | .blank => s
  | .malformed => s

/-- `Config::loadFromFile`; a file that cannot be opened has no content. -/
def loadFromFile (file : Option Text) (config : Config δ) : Bool × Config δ :=
  match file with
  | none => (false, config)
  | some content => (true, ((getlines content).foldl (loadLine D) ([], config)).2)

/-! ### The grammar of a line -/

/-- A text of blanks. -/
def Blank (t : Text) : Prop := ∀ c ∈ t, isspace c = true

/-- What a line says is what stands before its first comment sign. -/
structure CommentCut (line body : Text) : Prop where
  plain : ∀ c ∈ body, c ≠ '#' ∧ c ≠ ';'
  comment : ∃ rest, line = body ++ rest ∧ ∀ c ∈ rest.head?, c = '#' ∨ c = ';'

/-- A name in brackets, with blanks around them. -/
def Bracketed (body name : Text) : Prop :=
  ∃ lead tail, Blank lead ∧ Blank tail ∧ body = lead ++ '[' :: (name ++ ']' :: tail)

/-- How a line is meant to be read. -/
inductive Reads (line : Text) : IniLine → Prop where
  | blank {body : Text} : CommentCut line body → Blank body → Reads line .blank
  | header {body name : Text} : CommentCut line body → Bracketed body name →
      Reads line (.header (toLower (trim name)))
  | entry {key value : Text} : CommentCut line (key ++ '=' :: value) →
      (∀ name, ¬ Bracketed (key ++ '=' :: value) name) → '=' ∉ key →
      Reads line (.entry (toLower (trim key)) (trim value))
  | malformed {body : Text} : CommentCut line body → ¬ Blank body →
      (∀ name, ¬ Bracketed body name) → '=' ∉ body → Reads line .malformed

theorem CommentCut.takeWhile_eq {line body : Text} (h : CommentCut line body) :
    line.takeWhile (fun c => c ≠ '#' ∧ c ≠ ';') = body := by
  obtain ⟨rest, rfl, hcomment⟩ := h.comment
  rw [List.takeWhile_append_of_pos fun c hc => decide_eq_true (h.plain c hc)]
  cases rest with
  | nil => simp
  | cons c rest => rcases hcomment c rfl with rfl | rfl <;> simp

theorem exists_commentCut (line : Text) : ∃ body, CommentCut line body := by
  refine ⟨line.takeWhile fun c => c ≠ '#' ∧ c ≠ ';', ?_, ?_⟩
  · intro c hc
    simpa using List.mem_takeWhile_imp hc
  · refine ⟨line.dropWhile fun c => c ≠ '#' ∧ c ≠ ';', List.takeWhile_append_dropWhile.symm, ?_⟩
    intro c hc
    have hstops := List.head?_dropWhile_not (fun c => decide (c ≠ '#' ∧ c ≠ ';')) line
    rw [Option.mem_def.mp hc] at hstops
    simpa [Classical.or_iff_not_imp_left] using hstops

theorem trim_eq_nil_iff {t : Text} : trim t = [] ↔ Blank t := by
  unfold trim Blank
  rw [List.rdropWhile_eq_nil_iff]
  constructor
  · intro h c hc
    rw [← List.takeWhile_append_dropWhile (p := isspace) (l := t)] at hc
    rcases List.mem_append.mp hc with hc | hc
    · exact List.mem_takeWhile_imp hc
    · exact h c hc
  · intro h c hc
    exact h c ((List.dropWhile_sublist _).subset hc)

theorem trim_of_blank {t : Text} (h : Blank t) : trim t = [] := trim_eq_nil_iff.mpr h

/-- Blanks in front do not count, -/
theorem trim_lead {lead : Text} (h : Blank lead) (t : Text) : trim (lead ++ t) = trim t := by
  unfold trim
  rw [List.dropWhile_append_of_pos h]

theorem rdropWhile_tail {tail : Text} (h : Blank tail) (t : Text) :
    (t ++ tail).rdropWhile isspace = t.rdropWhile isspace := by
  unfold List.rdropWhile
  rw [List.reverse_append, List.dropWhile_append_of_pos fun c hc => h c (List.mem_reverse.mp hc)]

/-- nor do those behind. -/
theorem trim_tail {tail : Text} (h : Blank tail) (t : Text) : trim (t ++ tail) = trim t := by
  unfold trim
  rw [List.dropWhile_append]
  split
  · next hnone =>
    have hblank : Blank (tail.dropWhile isspace) := fun c hc =>
      h c ((List.dropWhile_sublist _).subset hc)
    rw [List.rdropWhile_eq_nil_iff.mpr hblank, List.isEmpty_iff.mp hnone]
    rfl
  · exact rdropWhile_tail h _

/-- A text is what is left of it by `trim` with blanks around. -/
theorem exists_blanks (t : Text) :
    ∃ lead tail, Blank lead ∧ Blank tail ∧ t = lead ++ (trim t ++ tail) := by
  refine ⟨t.takeWhile isspace, (t.dropWhile isspace).rtakeWhile isspace,
    fun c hc => List.mem_takeWhile_imp hc, fun c hc => List.mem_rtakeWhile_imp hc, ?_⟩
  unfold trim
  rw [List.rdropWhile_append_rtakeWhile, List.takeWhile_append_dropWhile]

theorem trim_dropWhile (t : Text) : trim (t.dropWhile isspace) = trim t := by
  conv_rhs => rw [← List.takeWhile_append_dropWhile (p := isspace) (l := t)]
  exact (trim_lead (fun c hc => List.mem_takeWhile_imp hc) _).symm

theorem trim_rdropWhile (t : Text) : trim (t.rdropWhile isspace) = trim t := by
  conv_rhs => rw [← List.rdropWhile_append_rtakeWhile (p := isspace) (l := t)]
  exact (trim_tail (fun c hc => List.mem_rtakeWhile_imp hc) _).symm

/-- Around a sign that is no blank, the two sides are trimmed apart. -/
theorem trim_around (left right : Text) {c : Char} (hc : isspace c = false) :
    trim (left ++ c :: right) =
      left.dropWhile isspace ++ c :: right.rdropWhile isspace := by
  have hleft : (left ++ c :: right).dropWhile isspace = left.dropWhile isspace ++ c :: right := by
    rw [List.dropWhile_append]
    split
    · next hnone =>
      rw [List.isEmpty_iff.mp hnone, List.dropWhile_cons_of_neg (by simp [hc])]
      rfl
    · rfl
  unfold trim
  rw [hleft]
  unfold List.rdropWhile
  rw [List.reverse_append, List.reverse_cons, List.append_assoc, List.dropWhile_append]
  split
  · next hnone =>
    rw [List.isEmpty_iff.mp hnone]
    simp [hc]
  · simp

theorem trim_bracketed {lead name tail : Text} (hlead : Blank lead) (htail : Blank tail) :
    trim (lead ++ '[' :: (name ++ ']' :: tail)) = '[' :: (name ++ [']']) := by
  have hsplit : '[' :: (name ++ ']' :: tail) = ('[' :: (name ++ [']'])) ++ tail := by simp
  rw [trim_lead hlead, hsplit, trim_tail htail]
  have haround := trim_around [] (name ++ [']']) (c := '[') rfl
  rwa [List.rdropWhile_concat_neg _ _ _ (by decide)] at haround

/-- The test for a section header. -/
theorem bracketed_iff (body : Text) :
    ((trim body).head? = some '[' ∧ (trim body).getLast? = some ']') ↔
      ∃ name, Bracketed body name := by
  constructor
  · rintro ⟨hfirst, hlast⟩
    obtain ⟨lead, tail, hlead, htail, hbody⟩ := exists_blanks body
    obtain ⟨name, hname⟩ : ∃ name, trim body = '[' :: (name ++ [']']) := by
      cases ht : trim body with
      | nil =>
        rw [ht] at hfirst
        cases hfirst
      | cons c t =>
        rw [ht] at hfirst hlast
        obtain rfl := Option.some.inj hfirst
        have hne : t ≠ [] := by
          rintro rfl
          cases hlast
        rw [List.getLast?_cons_of_ne_nil hne, List.getLast?_eq_some_iff] at hlast
        obtain ⟨name, rfl⟩ := hlast
        exact ⟨name, rfl⟩
    rw [hname] at hbody
    exact ⟨name, lead, tail, hlead, htail, by rw [hbody]; simp⟩
  · rintro ⟨name, lead, tail, hlead, htail, rfl⟩
    rw [trim_bracketed hlead htail]
    exact ⟨rfl, by rw [← List.cons_append, List.getLast?_concat]⟩

theorem Reads.readLine_eq {line : Text} {r : IniLine} (h : Reads line r) : readLine line = r := by
  unfold readLine
  cases h with
  | blank hcut hblank =>
    simp only [hcut.takeWhile_eq, trim_of_blank hblank]
    rfl
  | @header body name hcut hbracketed =>
    have hheader := (bracketed_iff body).mpr ⟨name, hbracketed⟩
    obtain ⟨lead, tail, hlead, htail, rfl⟩ := hbracketed
    rw [trim_bracketed hlead htail] at hheader
    simp only [hcut.takeWhile_eq, trim_bracketed hlead htail]
    rw [if_neg (by simp), if_pos hheader]
    simp
  | @entry key value hcut hplain hkey =>
    have hheader := mt (bracketed_iff (key ++ '=' :: value)).mp fun ⟨name, h⟩ => hplain name h
    -- `=` is no blank, so the line may be cut there before or after it is trimmed
    have hfront : ∀ c ∈ key.dropWhile isspace, decide (c ≠ '=') = true := fun c hc =>
      decide_eq_true fun heq => hkey (heq ▸ (List.dropWhile_sublist _).subset hc)
    rw [trim_around key value rfl] at hheader
    simp only [hcut.takeWhile_eq, trim_around key value (c := '=') rfl]
    rw [if_neg (by simp), if_neg hheader, if_pos (by simp),
      List.takeWhile_append_of_pos hfront, List.dropWhile_append_of_pos hfront]
    simp [trim_dropWhile, trim_rdropWhile]
  | @malformed body hcut hsome hplain hnone =>
    have hheader := mt (bracketed_iff body).mp fun ⟨name, h⟩ => hplain name h
    have hne : trim body ≠ [] := fun h => hsome (trim_eq_nil_iff.mp h)
    have hequals : '=' ∉ trim body := fun hin => by
      obtain ⟨lead, tail, -, -, hbody⟩ := exists_blanks body
      exact hnone (hbody ▸ by simp [hin])
    simp only [hcut.takeWhile_eq]
    rw [if_neg (by simpa using hne), if_neg hheader, if_neg hequals]

theorem exists_reads (line : Text) : ∃ r, Reads line r := by
  obtain ⟨body, hcut⟩ := exists_commentCut line
  by_cases hblank : Blank body
  · exact ⟨_, .blank hcut hblank⟩
  · by_cases hbracketed : ∃ name, Bracketed body name
    · obtain ⟨name, hname⟩ := hbracketed
      exact ⟨_, .header hcut hname⟩
    · have hplain : ∀ name, ¬ Bracketed body name := fun name h => hbracketed ⟨name, h⟩
      by_cases hequals : '=' ∈ body
      · obtain ⟨key, value, rfl, hkey⟩ := List.eq_append_cons_of_mem hequals
        exact ⟨_, .entry hcut hplain hkey⟩
      · exact ⟨_, .malformed hcut hblank hplain hequals⟩

/-- The loader reads a line as it is meant. -/
theorem readLine_eq_iff (line : Text) (r : IniLine) : readLine line = r ↔ Reads line r := by
  constructor
  · rintro rfl
    obtain ⟨r, hr⟩ := exists_reads line
    rwa [hr.readLine_eq]
  · exact Reads.readLine_eq

/-! ### Entries -/

/-- The entries of some lines that follow the header of a section. -/
def entries : Text → List Text → List (Entry Text Text)
  | _, [] => []
  | name, line :: lines =>
      match readLine line with
      | .header name' => entries name' lines
      | .entry key value => ⟨name, key, value⟩ :: entries name lines
      | .blank => entries name lines
      | .malformed => entries name lines

/-- The entries of a file. -/
def fileEntries (content : Text) : List (Entry Text Text) := entries [] (getlines content)

/-- The settings of all sections. -/
def settings : List (KeyedSetting (Text × Text) Text (Config δ)) := flatSettings (groups D)

theorem foldl_loadLine (lines : List Text) (name : Text) (config : Config δ) :
    (lines.foldl (loadLine D) (name, config)).2 =
      assignAll (groups D) (entries name lines) config := by
  induction lines generalizing name config with
  | nil => rfl
  | cons line lines ih =>
    rw [List.foldl_cons, entries]
    cases hline : readLine line with
    | blank =>
      simp only [loadLine, hline]
      exact ih name config
    | header name' =>
      simp only [loadLine, hline]
      exact ih name' config
    | malformed =>
      simp only [loadLine, hline]
      exact ih name config
    | entry key value =>
      simp only [loadLine, hline]
      rw [ih, parseSection_eq]
      rfl

/-! ### Sections and fields do not overlap -/

theorem groups_apart : (groups D).Pairwise Group.Apart := by
  unfold groups
  simp only [List.pairwise_cons, List.forall_mem_cons, List.not_mem_nil, false_imp_iff,
    implies_true, List.Pairwise.nil, and_true]
  repeat' apply And.intro
  all_goals exact ⟨of_decide_eq_false rfl, fun _ _ => rfl, fun _ _ => rfl⟩

theorem settings_apart : ∀ g ∈ groups D, g.settings.Pairwise KeyedSetting.Apart := by
  simp only [groups, List.forall_mem_cons, List.not_mem_nil, false_imp_iff, implies_true,
    and_true, rtlTcpSettings, audioSettings, sdrSettings, tunerSettings, sdrplaySettings,
    restSettings, xdrSettings, processingSettings, debugSettings, reconnectionSettings,
    List.pairwise_cons, List.Pairwise.nil]
  repeat' apply And.intro
  all_goals exact ⟨of_decide_eq_false rfl, fun _ _ => rfl, fun _ _ => rfl⟩

/-- The settings are all there is to a configuration. -/
theorem ext_settings {c c' : Config δ} (h : ∀ x ∈ settings D, x.get c = x.get c') : c = c' := by
  simp only [settings, flatSettings, groups, List.flatMap_cons, List.flatMap_nil, Group.flat,
    List.forall_mem_append, List.forall_mem_map, List.forall_mem_cons, List.not_mem_nil,
    false_imp_iff, implies_true, and_true, rtlTcpSettings, audioSettings, sdrSettings,
    tunerSettings, sdrplaySettings, restSettings, xdrSettings, processingSettings, debugSettings,
    reconnectionSettings, KeyedSetting.get, Lens.comp] at h
  obtain ⟨⟨_, _, _⟩, ⟨_, _, _⟩, ⟨_, _, _, _, _, _, _, _, _, _⟩, ⟨_, _, _, _⟩, ⟨_, _, _, _⟩,
    ⟨_, _, _⟩, ⟨_, _, _⟩, ⟨_, _, _, _, _, _, _, _, _, _, _, _, _, _, _⟩, ⟨_⟩, ⟨_⟩⟩ := c
  obtain ⟨⟨_, _, _⟩, ⟨_, _, _⟩, ⟨_, _, _, _, _, _, _, _, _, _⟩, ⟨_, _, _, _⟩, ⟨_, _, _, _⟩,
    ⟨_, _, _⟩, ⟨_, _, _⟩, ⟨_, _, _, _, _, _, _, _, _, _, _, _, _, _, _⟩, ⟨_⟩, ⟨_⟩⟩ := c'
  simp_all [text, int, flag, keyword, double]

/-! ### What one line does -/

variable {D}

theorem get_loadLine {x : KeyedSetting (Text × Text) Text (Config δ)} (hx : x ∈ settings D)
    (name : Text) (config : Config δ) (line : Text) :
    x.get (loadLine D (name, config) line).2 = x.get config ∨
      ∃ value v, x.key.1 = name ∧ readLine line = .entry x.key.2 value ∧
        x.read value = some v ∧ x.get (loadLine D (name, config) line).2 = v := by
  cases hline : readLine line with
  | blank =>
    left
    simp only [loadLine, hline]
  | header name' =>
    left
    simp only [loadLine, hline]
  | malformed =>
    left
    simp only [loadLine, hline]
  | entry key value =>
    have hget : x.get (loadLine D (name, config) line).2 =
        if (name, key) = x.key then (x.read value).getD (x.get config) else x.get config := by
      simp only [loadLine, hline, parseSection_eq]
      exact get_assignIn (groups_apart D) (settings_apart D) hx
    rw [hget]
    split
    · next hkey =>
      cases hread : x.read value with
      | none => exact Or.inl rfl
      | some v =>
        refine Or.inr ⟨value, v, ?_, ?_, hread, rfl⟩
        · rw [← hkey]
        · rw [← hkey]
    · exact Or.inl rfl

/-- A line that is no entry, or an entry that no setting can read, changes
    nothing. -/
theorem loadLine_eq_self {name line : Text}
    (h : ∀ x ∈ settings D, ∀ value, x.key.1 = name → readLine line = .entry x.key.2 value →
      x.read value = none) (config : Config δ) :
    (loadLine D (name, config) line).2 = config := by
  cases hline : readLine line with
  | blank => simp only [loadLine, hline]
  | header name' => simp only [loadLine, hline]
  | malformed => simp only [loadLine, hline]
  | entry key value =>
    simp only [loadLine, hline, parseSection_eq]
    refine assignIn_eq_self ?_
    intro x hx hkey
    refine h x hx value ?_ ?_
    · rw [← hkey]
    · rw [hline, ← hkey]

/-! ### What a file does -/

theorem get_loadFromFile {x : KeyedSetting (Text × Text) Text (Config δ)} (hx : x ∈ settings D)
    (content : Text) (config : Config δ) :
    x.get (loadFromFile D (some content) config).2 =
      (x.values (fileEntries content)).getLast?.getD (x.get config) := by
  show x.get (((getlines content).foldl (loadLine D) ([], config)).2) = _
  rw [foldl_loadLine]
  exact get_assignAll (groups_apart D) (settings_apart D) hx _ _

/-- What holds of the default and of all that a setting reads holds of the
    field. `i` and `j` say where the setting stands. -/
theorem loaded_of_read {g : Group Text Text (Config δ)} {x : KeyedSetting Text Text g.S} (i j : Nat)
    (hg : (groups D)[i]? = some g) (hx : g.settings[j]? = some x) {P : x.V → Prop}
    (hdefault : P (x.get (g.part.get (loadDefaults D))))
    (hread : ∀ value v, x.read value = some v → P v) (content : Text) :
    P (x.get (g.part.get (loadFromFile D (some content) (loadDefaults D)).2)) := by
  have hmem : (⟨(g.name, x.key), x.V, x.read, g.part.comp x.field⟩ :
      KeyedSetting (Text × Text) Text (Config δ)) ∈ settings D :=
    List.mem_flatMap.mpr ⟨g, List.mem_of_getElem? hg,
      List.mem_map.mpr ⟨x, List.mem_of_getElem? hx, rfl⟩⟩
  have hget := get_loadFromFile hmem content (loadDefaults D)
  show P (KeyedSetting.get ⟨(g.name, x.key), x.V, x.read, g.part.comp x.field⟩ _)
  rw [hget]
  cases hlast : (KeyedSetting.values _ (fileEntries content)).getLast? with
  | none => exact hdefault
  | some v =>
    have hv : v ∈ KeyedSetting.values _ (fileEntries content) := List.mem_of_getLast? hlast
    obtain ⟨e, -, he⟩ := List.mem_filterMap.mp hv
    split at he
    · exact hread e.text v he
    · cases he

/-! ### Domains -/

section kinds
variable {S V : Type} {key : String} {value : Text}

theorem read_int {accept : Int → Option V} {field : Lens S V} {v : V}
    (h : (int key accept field).read value = some v) : ∃ parsed, accept parsed = some v := by
  obtain ⟨parsed, -, hparsed⟩ := Option.bind_eq_some_iff.mp h
  exact ⟨parsed, hparsed⟩

theorem read_clamped {lo hi : Int} (hle : lo ≤ hi) {field : Lens S Int} {v : Int}
    (h : (int key (clamped lo hi) field).read value = some v) : lo ≤ v ∧ v ≤ hi := by
  obtain ⟨parsed, hparsed⟩ := read_int h
  rw [← Option.some.inj hparsed]
  exact clamp_bounds parsed hle

theorem read_inRange {lo hi : Int} {convert : Int → V} {field : Lens S V} {v : V}
    (h : (int key (inRange lo hi convert) field).read value = some v) :
    ∃ parsed, lo ≤ parsed ∧ parsed ≤ hi ∧ convert parsed = v := by
  obtain ⟨parsed, hparsed⟩ := read_int h
  unfold inRange at hparsed
  split at hparsed
  · next hrange => exact ⟨parsed, hrange.1, hrange.2, Option.some.inj hparsed⟩
  · cases hparsed

/-- The cast of a port changes nothing. -/
theorem read_port {lo : Int} (hlo : 0 ≤ lo) {field : Lens S Nat} {v : Nat}
    (h : (int key (inRange lo 65535 toUInt16) field).read value = some v) :
    lo ≤ v ∧ v ≤ 65535 := by
  obtain ⟨parsed, hge, hle, rfl⟩ := read_inRange h
  unfold toUInt16
  omega

theorem read_keyword {words : List String} {field : Lens S Text} {v : Text}
    (h : (keyword key words field).read value = some v) : v ∈ words.map String.toList := by
  have hsome : (if toLower (trim value) ∈ words.map String.toList then
      some (toLower (trim value)) else none) = some v := h
  split at hsome
  · next hword => exact Option.some.inj hsome ▸ hword
  · cases hsome

end kinds

theorem gainFlags_mem (parsed : Int) :
    gainFlags parsed = 0 ∨ gainFlags parsed = 1 ∨ gainFlags parsed = 10 ∨
      gainFlags parsed = 11 := by
  unfold gainFlags
  by_cases hrf : (parsed.tdiv 10).tmod 10 ≠ 0 <;> by_cases hif : parsed.tmod 10 ≠ 0 <;>
    simp [hrf, hif]

/-- The documented domains of the fields that are checked. -/
structure InDomain (c : Config δ) : Prop where
  rtlTcpPort : 1 ≤ c.rtlTcp.port ∧ c.rtlTcp.port ≤ 65535
  sampleRate : c.rtlTcp.sampleRate = 256000 ∨ c.rtlTcp.sampleRate = 1024000 ∨
    c.rtlTcp.sampleRate = 2048000
  startupVolume : 0 ≤ c.audio.startupVolume ∧ c.audio.startupVolume ≤ 100
  freqCorrectionPpm : -250 ≤ c.sdr.freqCorrectionPpm ∧ c.sdr.freqCorrectionPpm ≤ 250
  defaultCustomGainFlags : c.sdr.defaultCustomGainFlags = 0 ∨ c.sdr.defaultCustomGainFlags = 1 ∨
    c.sdr.defaultCustomGainFlags = 10 ∨ c.sdr.defaultCustomGainFlags = 11
  gainStrategy : c.sdr.gainStrategy ∈ ["tef", "sdrpp"].map String.toList
  sdrppRtlAgcGainDb : 0 ≤ c.sdr.sdrppRtlAgcGainDb ∧ c.sdr.sdrppRtlAgcGainDb ≤ 28
  source : c.tuner.source ∈ ["rtl_sdr", "rtl_tcp", "sdrplay"].map String.toList
  defaultFreq : 64000 ≤ c.tuner.defaultFreq ∧ c.tuner.defaultFreq ≤ 108000
  lnaState : 0 ≤ c.sdrplay.lnaState ∧ c.sdrplay.lnaState ≤ 27
  antenna : 0 ≤ c.sdrplay.antenna ∧ c.sdrplay.antenna ≤ 2
  restPort : c.rest.port ≤ 65535
  xdrPort : 1 ≤ c.xdr.port ∧ c.xdr.port ≤ 65535
  dspBlockSamples : 1024 ≤ c.processing.dspBlockSamples ∧ c.processing.dspBlockSamples ≤ 32768
  w0BandwidthHz : 0 ≤ c.processing.w0BandwidthHz ∧ c.processing.w0BandwidthHz ≤ 400000
  dspAgc : c.processing.dspAgc ∈ ["off", "fast", "slow"].map String.toList
  stereoBlend : c.processing.stereoBlend ∈ ["soft", "normal", "aggressive"].map String.toList
  hicut : c.processing.hicut ∈ ["off", "gentle", "strong"].map String.toList
  adaptiveBandwidth : c.processing.adaptiveBandwidth ∈
    ["off", "conservative", "aggressive"].map String.toList
  multipathEq : c.processing.multipathEq ∈ ["off", "light", "aggressive"].map String.toList
  multipathEqTaps : 5 ≤ c.processing.multipathEqTaps ∧ c.processing.multipathEqTaps ≤ 65
  fadeMute : c.processing.fadeMute ∈ ["off", "gentle", "strong"].map String.toList

/-- Every default is in its domain. -/
theorem loadDefaults_inDomain (D : Doubles δ) : (loadDefaults D).InDomain := by
  constructor
  case stereoBlend => exact .tail _ (.tail _ (.head _))
  case gainStrategy | source | dspAgc | hicut | adaptiveBandwidth | multipathEq | fadeMute =>
    exact .head _
  all_goals exact of_decide_eq_true rfl

section loaded
variable {g : Group Text Text (Config δ)} {key : String}

theorem loaded_clamped {lo hi : Int} {field : Lens g.S Int} (i j : Nat)
    (hg : (groups D)[i]? = some g) (hx : g.settings[j]? = some (int key (clamped lo hi) field))
    (hle : lo ≤ hi) (hdefault : lo ≤ field.get (g.part.get (loadDefaults D)) ∧
      field.get (g.part.get (loadDefaults D)) ≤ hi) (content : Text) :
    lo ≤ field.get (g.part.get (loadFromFile D (some content) (loadDefaults D)).2) ∧
      field.get (g.part.get (loadFromFile D (some content) (loadDefaults D)).2) ≤ hi :=
  loaded_of_read i j hg hx (P := fun v : Int => lo ≤ v ∧ v ≤ hi) hdefault
    (fun _ _ hread => read_clamped hle hread) content

theorem loaded_inRange {lo hi : Int} {field : Lens g.S Int} (i j : Nat)
    (hg : (groups D)[i]? = some g) (hx : g.settings[j]? = some (int key (inRange lo hi id) field))
    (hdefault : lo ≤ field.get (g.part.get (loadDefaults D)) ∧
      field.get (g.part.get (loadDefaults D)) ≤ hi) (content : Text) :
    lo ≤ field.get (g.part.get (loadFromFile D (some content) (loadDefaults D)).2) ∧
      field.get (g.part.get (loadFromFile D (some content) (loadDefaults D)).2) ≤ hi := by
  refine loaded_of_read i j hg hx (P := fun v : Int => lo ≤ v ∧ v ≤ hi) hdefault ?_ content
  intro value v hread
  obtain ⟨parsed, hge, hle, rfl⟩ := read_inRange hread
  exact ⟨hge, hle⟩

theorem loaded_port {lo : Nat} {field : Lens g.S Nat} (i j : Nat) (hg : (groups D)[i]? = some g)
    (hx : g.settings[j]? = some (int key (inRange lo 65535 toUInt16) field))
    (hdefault : lo ≤ field.get (g.part.get (loadDefaults D)) ∧
      field.get (g.part.get (loadDefaults D)) ≤ 65535) (content : Text) :
    lo ≤ field.get (g.part.get (loadFromFile D (some content) (loadDefaults D)).2) ∧
      field.get (g.part.get (loadFromFile D (some content) (loadDefaults D)).2) ≤ 65535 := by
  refine loaded_of_read i j hg hx (P := fun v : Nat => lo ≤ v ∧ v ≤ 65535) hdefault ?_ content
  intro value v hread
  have hport := read_port (Int.natCast_nonneg lo) hread
  omega

theorem loaded_keyword {words : List String} {field : Lens g.S Text} (i j : Nat)
    (hg : (groups D)[i]? = some g) (hx : g.settings[j]? = some (keyword key words field))
    (hdefault : field.get (g.part.get (loadDefaults D)) ∈ words.map String.toList)
    (content : Text) :
    field.get (g.part.get (loadFromFile D (some content) (loadDefaults D)).2) ∈
      words.map String.toList :=
  loaded_of_read i j hg hx (P := fun v : Text => v ∈ words.map String.toList) hdefault
    (fun _ _ hread => read_keyword hread) content

end loaded

theorem loaded_inDomain (content : Text) :
    (loadFromFile D (some content) (loadDefaults D)).2.InDomain := by
  have hd := loadDefaults_inDomain D
  constructor
  case rtlTcpPort => exact loaded_port 0 1 rfl rfl hd.rtlTcpPort content
  case sampleRate =>
    refine loaded_of_read 0 2 rfl rfl
      (P := fun v : Nat => v = 256000 ∨ v = 1024000 ∨ v = 2048000) hd.sampleRate ?_ content
    intro value v hread
    obtain ⟨parsed, hparsed⟩ := read_int hread
    split at hparsed
    · -- one of the three rates, which fits in 32 bits
      next hrate =>
      obtain rfl := Option.some.inj hparsed
      unfold toUInt32
      omega
    · cases hparsed
  case startupVolume => exact loaded_clamped 1 2 rfl rfl (by decide) hd.startupVolume content
  case freqCorrectionPpm =>
    exact loaded_clamped 2 1 rfl rfl (by decide) hd.freqCorrectionPpm content
  case defaultCustomGainFlags =>
    refine loaded_of_read 2 2 rfl rfl
      (P := fun v : Int => v = 0 ∨ v = 1 ∨ v = 10 ∨ v = 11) hd.defaultCustomGainFlags ?_ content
    intro value v hread
    obtain ⟨parsed, hparsed⟩ := read_int hread
    obtain rfl := Option.some.inj hparsed
    exact gainFlags_mem parsed
  case gainStrategy => exact loaded_keyword 2 3 rfl rfl hd.gainStrategy content
  case sdrppRtlAgcGainDb =>
    exact loaded_clamped 2 5 rfl rfl (by decide) hd.sdrppRtlAgcGainDb content
  case source => exact loaded_keyword 3 0 rfl rfl hd.source content
  case defaultFreq =>
    refine loaded_of_read 3 2 rfl rfl (P := fun v : Nat => 64000 ≤ v ∧ v ≤ 108000)
      hd.defaultFreq ?_ content
    intro value v hread
    obtain ⟨parsed, hparsed⟩ := read_int hread
    split at hparsed
    · next hvalid =>
      obtain rfl := Option.some.inj hparsed
      -- the band is checked after the conversion to 32 bits
      have hband : kFmBroadcastMinFreqKHz ≤ toUInt32 parsed ∧
          toUInt32 parsed ≤ kFmBroadcastMaxFreqKHz := by
        simpa [isValidFmBroadcastFreqKHz] using hvalid.2
      exact hband
    · cases hparsed
  case lnaState => exact loaded_inRange 4 1 rfl rfl hd.lnaState content
  case antenna => exact loaded_inRange 4 2 rfl rfl hd.antenna content
  case restPort => exact (loaded_port 5 1 rfl rfl ⟨Nat.zero_le _, hd.restPort⟩ content).2
  case xdrPort => exact loaded_port 6 0 rfl rfl hd.xdrPort content
  case dspBlockSamples => exact loaded_clamped 7 2 rfl rfl (by decide) hd.dspBlockSamples content
  case w0BandwidthHz => exact loaded_clamped 7 3 rfl rfl (by decide) hd.w0BandwidthHz content
  case dspAgc => exact loaded_keyword 7 4 rfl rfl hd.dspAgc content
  case stereoBlend => exact loaded_keyword 7 5 rfl rfl hd.stereoBlend content
  case hicut => exact loaded_keyword 7 8 rfl rfl hd.hicut content
  case adaptiveBandwidth => exact loaded_keyword 7 9 rfl rfl hd.adaptiveBandwidth content
  case multipathEq => exact loaded_keyword 7 10 rfl rfl hd.multipathEq content
  case multipathEqTaps => exact loaded_clamped 7 11 rfl rfl (by decide) hd.multipathEqTaps content
  case fadeMute => exact loaded_keyword 7 12 rfl rfl hd.fadeMute content

/-- Loading any file over the defaults: the checked fields are in their
    domains; each field has the last value that could be read for it, or
    its default; a line changes at most one field, of the section it is in,
    to the value its setting reads there, and no field if it is no entry or
    one that cannot be read. The settings are all fields there are, and a
    line is read by the grammar of the file. -/
theorem load_ini (D : Doubles δ) (content : Text) :
    let c := (loadFromFile D (some content) (loadDefaults D)).2
    c.InDomain ∧
    (∀ x ∈ settings D, x.get c =
      (x.values (fileEntries content)).getLast?.getD (x.get (loadDefaults D))) ∧
    (∀ (name line : Text) (before : Config δ),
      let after := (loadLine D (name, before) line).2
      (∀ x ∈ settings D, x.get after ≠ x.get before →
        ∃ value v, x.key.1 = name ∧ readLine line = .entry x.key.2 value ∧
          x.read value = some v ∧ x.get after = v) ∧
      (∀ x ∈ settings D, ∀ y ∈ settings D, x.get after ≠ x.get before →
        y.get after ≠ y.get before → x.key = y.key) ∧
      ((∀ x ∈ settings D, ∀ value, x.key.1 = name → readLine line = .entry x.key.2 value →
        x.read value = none) → after = before)) ∧
    ((settings D).map KeyedSetting.key).Nodup ∧
    (∀ c' c'' : Config δ, (∀ x ∈ settings D, x.get c' = x.get c'') → c' = c'') ∧
    ∀ line r, readLine line = r ↔ Reads line r := by
  intro c
  refine ⟨loaded_inDomain content, ?_, ?_, ?_, ?_, readLine_eq_iff⟩
  · intro x hx
    exact get_loadFromFile hx content (loadDefaults D)
  · intro name line before after
    have hchanged : ∀ x ∈ settings D, x.get after ≠ x.get before →
        ∃ value v, x.key.1 = name ∧ readLine line = .entry x.key.2 value ∧
          x.read value = some v ∧ x.get after = v := by
      intro x hx hne
      exact (get_loadLine hx name before line).resolve_left hne
    refine ⟨hchanged, ?_, fun hnone => loadLine_eq_self hnone before⟩
    intro x hx y hy hxne hyne
    obtain ⟨value, -, hxname, hxline, -⟩ := hchanged x hx hxne
    obtain ⟨value', -, hyname, hyline, -⟩ := hchanged y hy hyne
    have hentry : IniLine.entry x.key.2 value = .entry y.key.2 value' := hxline.symm.trans hyline
    exact Prod.ext (hxname.trans hyname.symm) (IniLine.entry.inj hentry).1
  · exact nodup_keys (groups_apart D) (settings_apart D)
  · intro c' c'' hsame
    exact ext_settings D hsame

/-- A small file: the entry in front of all sections counts for none, those
    that cannot be read leave the one before, and one is out of range. -/
theorem load_small_file :
    let D : Doubles Unit := ⟨fun _ => none, fun _ => (), fun _ _ _ => ()⟩
    let content := "port = 5\n[XDR]\nPort = 1 ; one\nport = x\nport\n\n[ Tuner ]\n" ++
      "default_freq = 99000 # kHz\n[processing]\ndsp_block_samples = 9"
    let c := (loadFromFile D (some content.toList) (loadDefaults D)).2
    c.xdr.port = 1 ∧ c.tuner.defaultFreq = 99000 ∧ c.processing.dspBlockSamples = 1024 ∧
      c.rest.port = 0 ∧ c.InDomain ∧
      Reads "Port = 1 ; one".toList (.entry "port".toList ['1']) := by
  intro D content c
  obtain ⟨hdomain, -, -, -, -, hgrammar⟩ := load_ini D content.toList
  exact ⟨by decide +kernel, by decide +kernel, by decide +kernel, by decide +kernel, hdomain,
    (hgrammar _ _).mp (by rfl)⟩

end Config

end FmSdrTuner
