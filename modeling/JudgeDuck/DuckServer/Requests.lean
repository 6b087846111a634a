/-
  The wire format: what a datagram asks for.

  The first five bytes of a datagram tell which function `process_…` can know it (`tag`): the names of
  the requests differ there, up to the two that are compared as a whole.  So the order of the functions
  does not matter, and a request that was encoded is performed as that request (`process_encode`).

  Conversely, every datagram means a request, or nothing, and it means the same in every state of the
  server (`exists_meaning`).  It need not be what `encode` gives: blanks may be missing or doubled, numbers
  may have a sign or leading zeros, and what follows the last number is not read.
-/
import JudgeDuck.DuckServer.Model
import JudgeDuck.Elf.Load
import JudgeDuck.Elf.Stack

namespace JudgeDuck.DuckServer

open JudgeDuck.Lib
open JudgeDuck.Judger (State)
open JudgeDuck.Network (Scanned Directive sscanf byte isSpace)
open JudgeDuck.Elf (le leBytes)

/-! ## Requests -/

/-- The name of a cache: a word in a C string. -/
def Name : Type := { w : List UInt8 // IsWord w ∧ 0 ∉ w }

/-- The text of a digest. -/
def Hex : Type := { w : List UInt8 // w.length = 64 }

/-- What a client asks for. -/
inductive Request where
  | uptime
  | statistics
  | cpuTemp
  | sysinfo
  | queryBufferSize
  | clear (off len : UInt64)
  | read (off len : UInt64)
  | write (off : UInt64) (data : List UInt8)
  | copy (dstOff srcOff len : UInt64)
  | compare (off1 off2 len : UInt64)
  | judge (numbers : Fin 16 → UInt64)
  | loadCache (name : Name) (off len : UInt64) (hex : Hex)
  | storeCache (name : Name) (off len : UInt64) (hex : Hex)
  | infoCache (name : Name)
  | queryAll

/-- The name that a datagram starts with. -/
def Request.name : Request → String
  | .uptime => "uptime"
  | .statistics => "statistics"
  | .cpuTemp => "cpu-temp"
  | .sysinfo => "sysinfo"
  | .queryBufferSize => "query-buffer-size"
  | .clear _ _ => "clear-buffer"
  | .read _ _ => "read-buffer"
  | .write _ _ => "write-buffer"
  | .copy _ _ _ => "copy-buffer"
  | .compare _ _ _ => "compare-buffer"
  | .judge _ => "judge"
  | .loadCache _ _ _ _ => "load-cache"
  | .storeCache _ _ _ _ => "store-cache"
  | .infoCache _ => "info-cache"
  | .queryAll => "query-all"

/-- The name of the cache in a datagram. -/
def Request.word : Request → List UInt8
  | .loadCache name _ _ _ => name.1
  | .storeCache name _ _ _ => name.1
  | .infoCache name => name.1
  | _ => []

/-- A datagram starts with the name of a request, and the name of the cache comes behind it. -/
def Request.Named (r : Request) (content : List UInt8) : Prop :=
  ∃ rest, content = text r.name ++ rest ∧ r.word <:+: rest

/-- The numbers of a judge request. -/
def judgeNumbers (n : Fin 16 → UInt64) : List Nat := (List.ofFn n).map UInt64.toNat

/-- The datagram of a request. -/
def Request.encode : Request → List UInt8
  | .uptime => text "uptime"
  | .statistics => text "statistics"
  | .cpuTemp => text "cpu-temp"
  | .sysinfo => text "sysinfo"
  | .queryBufferSize => text "query-buffer-size"
  | .clear off len => text "clear-buffer" ++ spaced [off.toNat, len.toNat]
  | .read off len => text "read-buffer" ++ spaced [off.toNat, len.toNat]
  | .write off data => text "write-buffer" ++ (leBytes 8 off.toNat ++ data)
  | .copy dstOff srcOff len => text "copy-buffer" ++ spaced [dstOff.toNat, srcOff.toNat, len.toNat]
  | .compare off1 off2 len => text "compare-buffer" ++ spaced [off1.toNat, off2.toNat, len.toNat]
  | .judge n => text "judge" ++ spaced (judgeNumbers n)
  | .loadCache name off len hex =>
    text "load-cache" ++ (text " " ++ name.1 ++ (spaced [off.toNat, len.toNat] ++ (text " " ++ hex.1)))
  | .storeCache name off len hex =>
    text "store-cache" ++ (text " " ++ name.1 ++ (spaced [off.toNat, len.toNat] ++ (text " " ++ hex.1)))
  | .infoCache name => text "info-cache" ++ (text " " ++ name.1)
  | .queryAll => text "query-all"

/-- The reply to `query-all`. -/
def queryAllReply (e : Readings) (s : State) : List UInt8 :=
  uptimeReply e ++ text "\n" ++ statisticsReply s ++ text "\n" ++ infoReply (text "elf") s ++ text "\n" ++
    infoReply (text "data") s ++ text "\n" ++ cpuTempReply e ++ text "\n"

/-- What the server does for a judge request. -/
def judgeRequest (c : Setup) (e : Readings) (n : Nat → Nat) (s : State) :
    Except Fault (State × Processed) :=
  (Judger.judge c.platform (scannedRequest n) e.user s).map fun r => (r.1, .reply (judgeReply c r.2))

/-- What the server does for a request. -/
def Request.perform (c : Setup) (e : Readings) (s : State) :
    Request → Except Fault (State × Processed)
  | .uptime => .ok (s, .reply (uptimeReply e))
  | .statistics => .ok (s, .reply (statisticsReply s))
  | .cpuTemp => .ok (s, .reply (cpuTempReply e))
  | .sysinfo => .ok (s, .reply (sysinfoReply c e))
  | .queryBufferSize => .ok (s, .reply (text "ok-query-buffer-size " ++ lu s.bufferSize))
  | .clear off len => clearRequest off.toNat len.toNat s
  | .read off len => readRequest off.toNat len.toNat s
  | .write off data => writeRequest (leBytes 8 off.toNat ++ data) s
  | .copy dstOff srcOff len => copyRequest dstOff.toNat srcOff.toNat len.toNat s
  | .compare off1 off2 len => compareRequest off1.toNat off2.toNat len.toNat s
  | .judge n => judgeRequest c e (fun i => (judgeNumbers n).getD i 0) s
  | .loadCache name off len hex => loadRequest e name.1 off.toNat len.toNat (chars hex.1) s
  | .storeCache name off len hex => storeRequest c e name.1 off.toNat len.toNat (chars hex.1) s
  | .infoCache name => .ok (s, .reply (infoReply name.1 s))
  | .queryAll => .ok (s, .reply (queryAllReply e s))

/-! ## The first bytes -/

/-- A format that starts with the name of a request; what it reads behind it is `f`. -/
structure Spells (format name : String) (f : List Directive) : Prop where
  eq : directives format.toList = lits (text name) ++ f
  long : 5 ≤ (text name).length
  plain : 0 ∉ text name

theorem spells_clear : Spells "clear-buffer %lu %lu" "clear-buffer" (fields [true, true]) :=
  ⟨rfl, by decide, by decide⟩

theorem spells_read : Spells "read-buffer %lu %lu" "read-buffer" (fields [true, true]) :=
  ⟨rfl, by decide, by decide⟩

theorem spells_copy : Spells "copy-buffer %lu %lu %lu" "copy-buffer" (fields [true, true, true]) :=
  ⟨rfl, by decide, by decide⟩

theorem spells_compare :
    Spells "compare-buffer %lu %lu %lu" "compare-buffer" (fields [true, true, true]) :=
  ⟨rfl, by decide, by decide⟩

/-- The numbers of a judge request are separated by blanks, but for one pair. -/
theorem spells_judge :
    Spells judgeFormat "judge" (fields (List.replicate 11 true ++ false :: List.replicate 4 true)) :=
  ⟨rfl, by decide, by decide⟩

theorem spells_load :
    Spells "load-cache %s %lu %lu" "load-cache" (.space :: .str :: fields [true, true]) :=
  ⟨rfl, by decide, by decide⟩

theorem spells_store :
    Spells "store-cache %s %lu %lu" "store-cache" (.space :: .str :: fields [true, true]) :=
  ⟨rfl, by decide, by decide⟩

theorem spells_info : Spells "info-cache %s" "info-cache" [.space, .str] :=
  ⟨rfl, by decide, by decide⟩

/-- The bytes in which the names of requests differ. -/
def tag (content : List UInt8) : List UInt8 := content.take 5

section Tags

variable {content : List UInt8} {format name : String} {f : List Directive}

/-- The tag of a datagram is that of any name of at least five bytes that it starts with. -/
theorem tag_of_starts {p : List UInt8} (hp : 5 ≤ p.length) (h : p <+: content) : tag content = tag p := by
  obtain ⟨rest, rfl⟩ := h
  rw [tag, List.take_append_of_le_length hp]
  rfl

theorem equalsTo_eq_false (name : String) (h : tag content ≠ tag (text name)) :
    equalsTo content name = false := by
  rw [← Bool.not_eq_true]
  exact fun heq => h (congrArg tag (eq_of_beq heq))

theorem startsWith_eq_false (name : String) (hname : 5 ≤ (text name).length)
    (h : tag content ≠ tag (text name)) : startsWith content name = false := by
  rw [← Bool.not_eq_true, startsWith, List.isPrefixOf_iff_prefix]
  exact fun hpre => h (tag_of_starts hname hpre)

/-- Something is read only from a datagram that starts with the format's name. -/
theorem Spells.starts (F : Spells format name f) (h : scan format content ≠ []) :
    text name <+: content := by
  rw [scan, F.eq] at h
  exact (prefix_of_sscanf _ h).trans (List.takeWhile_prefix _)

theorem Spells.starts_of_cons (F : Spells format name f) {v : Scanned} {vs : List Scanned}
    (h : scan format content = v :: vs) : text name <+: content :=
  F.starts (by rw [h]; exact List.cons_ne_nil _ _)

theorem Spells.tag_of_cons (F : Spells format name f) {v : Scanned} {vs : List Scanned}
    (h : scan format content = v :: vs) : tag content = tag (text name) :=
  tag_of_starts F.long (F.starts_of_cons h)

/-- With another tag nothing is read, so the function goes on to its next format. -/
theorem Spells.scan_eq_nil (F : Spells format name f) (h : tag content ≠ tag (text name)) :
    scan format content = [] := by
  by_contra hne
  exact h (tag_of_starts F.long (F.starts hne))

end Tags

/-! ## The functions one after the other -/

section Chain

variable {c : Setup} {e : Readings} {s : State} {content : List UInt8}

/-- `process_controls` knows four names, and leaves every other datagram to the next function. -/
theorem processControls_unknown
    (h : tag content ∉ ["uptime", "statistics", "cpu-temp", "sysinfo"].map fun name => tag (text name)) :
    processControls c e s content = .unknown := by
  simp only [List.map_cons, List.map_nil, List.mem_cons, List.not_mem_nil, or_false, not_or] at h
  obtain ⟨hup, hstat, htemp, hsys⟩ := h
  simp only [processControls, equalsTo_eq_false _ hup, equalsTo_eq_false _ hstat, equalsTo_eq_false _ htemp,
    equalsTo_eq_false _ hsys, Bool.false_eq_true, if_false]

/-- `process_data` knows six names. -/
theorem processData_unknown
    (h : tag content ∉ ["query-buffer-size", "clear-buffer", "read-buffer", "write-buffer", "copy-buffer",
      "compare-buffer"].map fun name => tag (text name)) :
    processData content s = .ok (s, .unknown) := by
  simp only [List.map_cons, List.map_nil, List.mem_cons, List.not_mem_nil, or_false, not_or] at h
  obtain ⟨hquery, hclear, hread, hwrite, hcopy, hcompare⟩ := h
  have hstarts : startsWith content "write-buffer" = false := startsWith_eq_false _ (by decide) hwrite
  simp only [processData, equalsTo_eq_false _ hquery, spells_clear.scan_eq_nil hclear,
    spells_read.scan_eq_nil hread, hstarts, spells_copy.scan_eq_nil hcopy,
    spells_compare.scan_eq_nil hcompare, Bool.false_eq_true, if_false]

/-- `process_judge` knows one name. -/
theorem processJudge_unknown (h : tag content ≠ tag (text "judge")) :
    processJudge c e content s = .ok (s, .unknown) := by
  simp only [processJudge, spells_judge.scan_eq_nil h]
  rfl

/-- The digest at the end of a datagram makes no difference if nothing is read before it. -/
theorem scanCache_eq_nil (format : String) (h : scan format content = []) : scanCache format content = [] := by
  rw [scanCache, h, ite_self]

/-- `process_cache` knows three names. -/
theorem processCache_unknown
    (h : tag content ∉ ["load-cache", "store-cache", "info-cache"].map fun name => tag (text name)) :
    processCache c e content s = .ok (s, .unknown) := by
  simp only [List.map_cons, List.map_nil, List.mem_cons, List.not_mem_nil, or_false, not_or] at h
  obtain ⟨hload, hstore, hinfo⟩ := h
  simp only [processCache, scanCache_eq_nil _ (spells_load.scan_eq_nil hload),
    scanCache_eq_nil _ (spells_store.scan_eq_nil hstore), spells_info.scan_eq_nil hinfo]

/-- `process_special` compares as a whole, so here it is the datagram and not its tag that has to
    differ. -/
theorem processSpecial_unknown (h : content ≠ text "query-all") :
    processSpecial c e content s = .ok (s, .unknown) := by
  rw [processSpecial, equalsTo, beq_eq_false_iff_ne.mpr h]
  rfl

/-- A function that does not return `false`. -/
def Known (r : Except Fault (State × Processed)) : Prop := ∀ s' x, r = .ok (s', x) → x ≠ .unknown

theorem known_ok {x : Processed} (h : x ≠ .unknown) : Known (.ok (s, x)) := by
  rintro s' x' heq
  cases heq
  exact h

theorem known_bind {α : Type} {r : Except Fault α} {f : α → Except Fault (State × Processed)}
    (h : ∀ a, Known (f a)) : Known (r >>= f) := by
  intro s' x heq
  obtain ⟨a, -, ha⟩ := bind_ok heq
  exact h a s' x ha

/-- A refused request is silent, which is not the same as unknown. -/
theorem replyIf_ne_unknown (ret : Bool) (res : List UInt8) : replyIf ret res ≠ .unknown := by
  cases ret <;> exact Processed.noConfusion

theorem orElse_unknown {a b : State → Except Fault (State × Processed)} (h : a s = .ok (s, .unknown)) :
    orElse a b s = b s := by
  rw [orElse, h]
  rfl

/-- A known one is not, also when the call faults. -/
theorem orElse_known {a b : State → Except Fault (State × Processed)} (h : Known (a s)) :
    orElse a b s = a s := by
  rw [orElse]
  cases ha : a s with
  | error fault => rfl
  | ok r =>
    obtain ⟨s', x⟩ := r
    cases x with
    | unknown => exact absurd rfl (h s' _ ha)
    | silent => rfl
    | reply res => rfl

theorem process_of_controls {x : Processed} (h : processControls c e s content = x) (hx : x ≠ .unknown) :
    process c e content s = .ok (s, x) := by
  rw [process, orElse_known (h ▸ known_ok hx), h]

theorem process_of_data {name : String}
    (hname : name ∈ ["query-buffer-size", "clear-buffer", "read-buffer", "write-buffer", "copy-buffer",
      "compare-buffer"])
    (htag : tag content = tag (text name)) (hknown : Known (processData content s)) :
    process c e content s = processData content s := by
  -- no name of one group has the tag of a name of another one, so each group is decided by a table
  have hdisjoint : ∀ name ∈ ["query-buffer-size", "clear-buffer", "read-buffer", "write-buffer",
      "copy-buffer", "compare-buffer"], tag (text name) ∉
        ["uptime", "statistics", "cpu-temp", "sysinfo"].map fun name => tag (text name) := by decide
  have hcontrols : processControls c e s content = .unknown :=
    processControls_unknown (htag ▸ hdisjoint name hname)
  rw [process, orElse_unknown (by rw [hcontrols]), orElse_known hknown]

theorem process_of_judge (htag : tag content = tag (text "judge"))
    (hknown : Known (processJudge c e content s)) :
    process c e content s = processJudge c e content s := by
  have hcontrols : processControls c e s content = .unknown :=
    processControls_unknown (by rw [htag]; decide)
  rw [process, orElse_unknown (by rw [hcontrols]),
    orElse_unknown (processData_unknown (by rw [htag]; decide)), orElse_known hknown]

theorem process_of_cache {name : String} (hname : name ∈ ["load-cache", "store-cache", "info-cache"])
    (htag : tag content = tag (text name)) (hknown : Known (processCache c e content s)) :
    process c e content s = processCache c e content s := by
  have hdisjoint : ∀ name ∈ ["load-cache", "store-cache", "info-cache"], tag (text name) ∉
      ["uptime", "statistics", "cpu-temp", "sysinfo", "query-buffer-size", "clear-buffer", "read-buffer",
        "write-buffer", "copy-buffer", "compare-buffer", "judge"].map fun name => tag (text name) := by
    decide
  have hother := htag ▸ hdisjoint name hname
  -- the lists of the earlier functions are parts of the list of eleven names
  have hcontrols : processControls c e s content = .unknown :=
    processControls_unknown fun h => hother (List.mem_of_mem_take (i := 4) h)
  have hdata : processData content s = .ok (s, .unknown) :=
    processData_unknown fun h => hother (List.mem_of_mem_drop (i := 4) (List.mem_of_mem_take (i := 6) h))
  have hjudge : processJudge c e content s = .ok (s, .unknown) :=
    processJudge_unknown fun h => hother (h ▸ List.mem_of_mem_drop (i := 10) List.mem_cons_self)
  rw [process, orElse_unknown (by rw [hcontrols]), orElse_unknown hdata, orElse_unknown hjudge,
    orElse_known hknown]

end Chain

/-! ## One request after the other -/

section Each

variable {c : Setup} {e : Readings} {s : State} {content : List UInt8} {off off2 len : Nat}

theorem process_clear (h : scan "clear-buffer %lu %lu" content = [.num off, .num len]) :
    process c e content s = clearRequest off len s := by
  have htag := spells_clear.tag_of_cons h
  have hdata : processData content s = clearRequest off len s := by
    simp only [processData, equalsTo_eq_false "query-buffer-size" (by rw [htag]; decide), h,
      Bool.false_eq_true, if_false]
  have hknown : Known (clearRequest off len s) :=
    known_bind fun r => known_ok (replyIf_ne_unknown _ _)
  rw [process_of_data (by decide) htag (hdata ▸ hknown), hdata]

theorem process_read (h : scan "read-buffer %lu %lu" content = [.num off, .num len]) :
    process c e content s = readRequest off len s := by
  have htag := spells_read.tag_of_cons h
  have hdata : processData content s = readRequest off len s := by
    simp only [processData, equalsTo_eq_false "query-buffer-size" (by rw [htag]; decide),
      spells_clear.scan_eq_nil (by rw [htag]; decide),
      h, Bool.false_eq_true, if_false]
  have hknown : Known (readRequest off len s) := by
    rw [readRequest]
    split
    · exact known_ok Processed.noConfusion
    · refine known_bind fun r => known_ok ?_
      cases r <;> exact Processed.noConfusion
  rw [process_of_data (by decide) htag (hdata ▸ hknown), hdata]

/-- `write-buffer` is not scanned: what follows the name is binary. -/
theorem process_write (h : startsWith content "write-buffer" = true) :
    process c e content s = writeRequest (content.drop 12) s := by
  have htag : tag content = tag (text "write-buffer") :=
    tag_of_starts (by decide) (List.isPrefixOf_iff_prefix.mp h)
  have hdata : processData content s = writeRequest (content.drop 12) s := by
    simp only [processData, equalsTo_eq_false "query-buffer-size" (by rw [htag]; decide),
      spells_clear.scan_eq_nil (by rw [htag]; decide),
      spells_read.scan_eq_nil (by rw [htag]; decide),
      h, Bool.false_eq_true, if_false, if_true]
  have hknown : Known (writeRequest (content.drop 12) s) := by
    rw [writeRequest]
    split
    · exact known_ok Processed.noConfusion
    · exact known_bind fun r => known_ok (replyIf_ne_unknown _ _)
  rw [process_of_data (by decide) htag (hdata ▸ hknown), hdata]

theorem process_copy (h : scan "copy-buffer %lu %lu %lu" content = [.num off, .num off2, .num len]) :
    process c e content s = copyRequest off off2 len s := by
  have htag := spells_copy.tag_of_cons h
  have hdata : processData content s = copyRequest off off2 len s := by
    simp only [processData, equalsTo_eq_false "query-buffer-size" (by rw [htag]; decide),
      spells_clear.scan_eq_nil (by rw [htag]; decide),
      spells_read.scan_eq_nil (by rw [htag]; decide),
      startsWith_eq_false "write-buffer" (by decide) (by rw [htag]; decide), h, Bool.false_eq_true, if_false]
  have hknown : Known (copyRequest off off2 len s) :=
    known_bind fun r => known_ok (replyIf_ne_unknown _ _)
  rw [process_of_data (by decide) htag (hdata ▸ hknown), hdata]

theorem process_compare (h : scan "compare-buffer %lu %lu %lu" content = [.num off, .num off2, .num len]) :
    process c e content s = compareRequest off off2 len s := by
  have htag := spells_compare.tag_of_cons h
  have hdata : processData content s = compareRequest off off2 len s := by
    simp only [processData, equalsTo_eq_false "query-buffer-size" (by rw [htag]; decide),
      spells_clear.scan_eq_nil (by rw [htag]; decide),
      spells_read.scan_eq_nil (by rw [htag]; decide),
      startsWith_eq_false "write-buffer" (by decide) (by rw [htag]; decide),
      spells_copy.scan_eq_nil (by rw [htag]; decide),
      h, Bool.false_eq_true, if_false]
  have hknown : Known (compareRequest off off2 len s) := by
    refine known_bind fun r => known_ok ?_
    cases r <;> exact Processed.noConfusion
  rw [process_of_data (by decide) htag (hdata ▸ hknown), hdata]

/-- A judge request needs all of its 16 numbers. -/
theorem process_judge {ns : List Nat} (h : numbers (scan judgeFormat content) = ns) (hns : ns.length = 16) :
    process c e content s = judgeRequest c e (fun i => ns.getD i 0) s := by
  have htag : tag content = tag (text "judge") := by
    refine tag_of_starts spells_judge.long (spells_judge.starts fun hnil => ?_)
    rw [hnil] at h
    rw [← h] at hns
    exact absurd hns (by decide)
  have hjudge : processJudge c e content s = judgeRequest c e (fun i => ns.getD i 0) s := by
    simp only [processJudge, h, hns, if_true, judgeRequest]
    cases Judger.judge c.platform (scannedRequest fun i => ns.getD i 0) e.user s <;> rfl
  have hknown : Known (judgeRequest c e (fun i => ns.getD i 0) s) := by
    intro s' x heq
    obtain ⟨r, -, hr⟩ := map_ok heq
    cases hr
    exact Processed.noConfusion
  rw [process_of_judge htag (hjudge ▸ hknown), hjudge]

/-- A cache request is looked at only if there is room for a digest behind it. -/
theorem scan_of_scanCache {format : String} {vs : List Scanned} (h : scanCache format content = vs)
    (hvs : vs ≠ []) : 64 < content.length ∧ scan format content = vs := by
  rw [scanCache] at h
  split at h
  · rename_i hlen
    exact ⟨hlen, h⟩
  · exact absurd h.symm hvs

theorem process_load {name : List UInt8}
    (h : scanCache "load-cache %s %lu %lu" content = [.str name, .num off, .num len]) :
    process c e content s = loadRequest e name off len (hexOf content) s := by
  have hscan := (scan_of_scanCache h (List.cons_ne_nil _ _)).2
  have htag := spells_load.tag_of_cons hscan
  have hcache : processCache c e content s = loadRequest e name off len (hexOf content) s := by
    simp only [processCache, h]
  have hknown : Known (loadRequest e name off len (hexOf content) s) :=
    known_bind fun r => known_ok Processed.noConfusion
  rw [process_of_cache (by decide) htag (hcache ▸ hknown), hcache]

theorem process_store {name : List UInt8}
    (h : scanCache "store-cache %s %lu %lu" content = [.str name, .num off, .num len]) :
    process c e content s = storeRequest c e name off len (hexOf content) s := by
  have hscan := (scan_of_scanCache h (List.cons_ne_nil _ _)).2
  have htag := spells_store.tag_of_cons hscan
  have hcache : processCache c e content s = storeRequest c e name off len (hexOf content) s := by
    simp only [processCache, scanCache_eq_nil _ (spells_load.scan_eq_nil (by rw [htag]; decide)), h]
  have hknown : Known (storeRequest c e name off len (hexOf content) s) :=
    known_bind fun r => known_ok Processed.noConfusion
  rw [process_of_cache (by decide) htag (hcache ▸ hknown), hcache]

/-- `info-cache` is read without a digest. -/
theorem processCache_info {name : List UInt8} (h : scan "info-cache %s" content = [.str name]) :
    processCache c e content s = .ok (s, .reply (infoReply name s)) := by
  have htag := spells_info.tag_of_cons h
  simp only [processCache, scanCache_eq_nil _ (spells_load.scan_eq_nil (by rw [htag]; decide)),
    scanCache_eq_nil _ (spells_store.scan_eq_nil (by rw [htag]; decide)), h]

theorem process_info {name : List UInt8} (h : scan "info-cache %s" content = [.str name]) :
    process c e content s = .ok (s, .reply (infoReply name s)) := by
  have htag := spells_info.tag_of_cons h
  have hcache := processCache_info (c := c) (e := e) (s := s) h
  rw [process_of_cache (by decide) htag (hcache ▸ known_ok Processed.noConfusion), hcache]

theorem processSpecial_queryAll :
    processSpecial c e (text "query-all") s = .ok (s, .reply (queryAllReply e s)) := by
  have helf : ∀ s, processCache c e (text "info-cache elf") s =
      .ok (s, .reply (infoReply (text "elf") s)) := fun s => processCache_info (by decide)
  have hdata : ∀ s, processCache c e (text "info-cache data") s =
      .ok (s, .reply (infoReply (text "data") s)) := fun s => processCache_info (by decide)
  rw [processSpecial, if_pos (by decide)]
  simp only [helf, hdata]
  rfl

theorem process_queryAll : process c e (text "query-all") s = .ok (s, .reply (queryAllReply e s)) := by
  have hscan : ∀ content : List UInt8, content = text "query-all" →
      processData content s = .ok (s, .unknown) := by
    rintro content rfl
    rfl
  rw [process, orElse_unknown rfl, orElse_unknown (hscan _ rfl),
    orElse_unknown (processJudge_unknown (by decide)), orElse_unknown (processCache_unknown (by decide)),
    processSpecial_queryAll]

end Each

/-! ## Encoding -/

section Encoding

variable (c : Setup) (e : Readings) (s : State)

theorem toNat_lt (l : List UInt64) : ∀ x ∈ l.map UInt64.toNat, x < 2 ^ 64 := by
  intro x hx
  obtain ⟨y, -, rfl⟩ := List.mem_map.mp hx
  exact y.toNat_lt

/-- A text with numbers is scanned as it was printed. -/
theorem Spells.scan_spaced {format name : String} {bs : List Bool} (F : Spells format name (fields bs))
    (l : List UInt64) (hlen : bs.length = l.length) :
    scan format (text name ++ spaced (l.map UInt64.toNat)) = (l.map UInt64.toNat).map .num := by
  have hend : EndsNumber [] := fun b hb => absurd hb (Option.not_mem_none b)
  have hread := sscanf_named name (l.map UInt64.toNat) bs (by rw [hlen, List.length_map]) (toNat_lt l) hend
  rw [List.append_nil] at hread
  have hzero : 0 ∉ text name ++ spaced (l.map UInt64.toNat) := by
    rw [List.mem_append, not_or]
    exact ⟨F.plain, zero_not_mem_spaced _⟩
  have hcstr := cstr_append hzero []
  rw [List.append_nil] at hcstr
  rw [scan, F.eq, hcstr, show cstr [] = [] from rfl, List.append_nil, hread]

theorem numbers_map (xs : List Nat) : numbers (xs.map .num) = xs := by
  rw [numbers, List.filterMap_map]
  exact List.filterMap_some

/-- A request to a cache is scanned as it was printed, and the digest is found behind the numbers. -/
theorem Spells.scanCache_encoded {format name : String}
    (F : Spells format name (.space :: .str :: fields [true, true])) (w : Name) (off len : UInt64)
    (hex : Hex) :
    scanCache format (text name ++ (text " " ++ w.1 ++ (spaced [off.toNat, len.toNat] ++ (text " " ++ hex.1))))
        = [.str w.1, .num off.toNat, .num len.toNat] ∧
      hexOf (text name ++ (text " " ++ w.1 ++ (spaced [off.toNat, len.toNat] ++ (text " " ++ hex.1))))
        = chars hex.1 := by
  have hhex := hex.2
  constructor
  · have hzero : 0 ∉ text name ++ (text " " ++ w.1 ++ (spaced [off.toNat, len.toNat] ++ text " ")) := by
      simp only [List.mem_append, not_or]
      exact ⟨F.plain, ⟨by decide, w.2.2⟩, zero_not_mem_spaced _, by decide⟩
    have hcstr := cstr_append hzero hex.1
    simp only [List.append_assoc] at hcstr ⊢
    have hread := sscanf_named_str name [off.toNat, len.toNat] [true, true] w.2.1 rfl
      (List.cons_ne_nil _ _) (toNat_lt [off, len]) (endsNumber_blank (cstr hex.1))
    have hblank : (text " ").length = 1 := rfl
    rw [scanCache, if_pos (by simp only [List.length_append, hhex, hblank]; omega), scan, F.eq, hcstr]
    simp only [List.append_assoc] at hread
    exact hread
  · rw [hexOf]
    congr 1
    simp only [← List.append_assoc]
    rw [List.length_append, hhex, Nat.add_sub_cancel, List.drop_left]

/-- **Whatever is encoded is performed**: no request is taken for another one. -/
theorem process_encode (r : Request) : process c e r.encode s = r.perform c e s := by
  cases r with
  | uptime | statistics | cpuTemp | sysinfo => exact process_of_controls rfl Processed.noConfusion
  | queryBufferSize =>
    exact process_of_data (List.mem_of_mem_take (i := 1) List.mem_cons_self) rfl (known_ok Processed.noConfusion)
  | clear off len =>
    exact process_clear (spells_clear.scan_spaced [off, len] rfl)
  | read off len =>
    exact process_read (spells_read.scan_spaced [off, len] rfl)
  | write off data =>
    exact process_write (List.isPrefixOf_iff_prefix.mpr (List.prefix_append _ _))
  | copy dstOff srcOff len =>
    exact process_copy (spells_copy.scan_spaced [dstOff, srcOff, len] rfl)
  | compare off1 off2 len =>
    exact process_compare (spells_compare.scan_spaced [off1, off2, len] rfl)
  | judge n =>
    have hscan := spells_judge.scan_spaced (List.ofFn n) (by rw [List.length_ofFn]; rfl)
    exact process_judge (by rw [Request.encode, judgeNumbers, hscan, numbers_map])
      (by rw [judgeNumbers, List.length_map, List.length_ofFn])
  | loadCache name off len hex =>
    obtain ⟨hscan, hhex⟩ := spells_load.scanCache_encoded name off len hex
    rw [Request.encode, process_load hscan, hhex]
    rfl
  | storeCache name off len hex =>
    obtain ⟨hscan, hhex⟩ := spells_store.scanCache_encoded name off len hex
    rw [Request.encode, process_store hscan, hhex]
    rfl
  | infoCache name =>
    have hzero : 0 ∉ text "info-cache" ++ (text " " ++ name.1) := by
      simp only [List.mem_append, not_or]
      exact ⟨by decide, by decide, name.2.2⟩
    have hcstr := cstr_append hzero []
    have hend : ∀ b ∈ ([] : List UInt8).head?, isSpace b = true :=
      fun b hb => absurd hb (Option.not_mem_none b)
    have hread := sscanf_str (f := []) name.2.1 hend
    rw [List.append_nil] at hcstr hread
    refine process_info ?_
    rw [Request.encode, scan, hcstr, show cstr [] = [] from rfl, List.append_nil]
    exact ((sscanf_lits (text "info-cache")).trans sscanf_space_str).trans hread
  | queryAll => exact process_queryAll

end Encoding

/-! ## Meaning -/

/-- What a datagram means: a request, whose name it starts with; or nothing, and then nothing changes
    and nothing is sent. -/
def Means (content : List UInt8) : Option Request → Prop
  | some r => r.Named content ∧ ∀ c e s, process c e content s = r.perform c e s
  | none => ∀ c e s, process c e content s = .ok (s, .unknown) ∨ process c e content s = .ok (s, .silent)

section Meaning

variable {content : List UInt8}

theorem exists_u64 {x : Nat} (h : x < 2 ^ 64) : ∃ y : UInt64, y.toNat = x :=
  ⟨UInt64.ofNat x, UInt64.toNat_ofNat_of_lt' h⟩

/-- What `%lu` reads fits into 64 bits: `sscanf` saturates. -/
theorem scan_lt {format : String} {x : Nat} (h : .num x ∈ scan format content) : ∃ y : UInt64, y.toNat = x :=
  exists_u64 (sscanf_wellFormed _ _ _ h)

/-- What `%s` reads is a word without a zero byte, that is a `Name`. -/
theorem scan_name {format : String} {w : List UInt8} (h : .str w ∈ scan format content) :
    ∃ name : Name, name.1 = w := by
  obtain ⟨hword, hsub⟩ := sscanf_wellFormed _ _ _ h
  refine ⟨⟨w, hword, fun hzero => ?_⟩, rfl⟩
  have hne := List.mem_takeWhile_imp (hsub.subset hzero)
  exact absurd hne (by decide)

theorem starts_of_named {r : Request} (h : r.Named content) : text r.name <+: content := by
  obtain ⟨rest, rfl, -⟩ := h
  exact List.prefix_append _ _

theorem named_of_starts {r : Request} (hword : r.word = []) (h : text r.name <+: content) :
    r.Named content := by
  obtain ⟨rest, rfl⟩ := h
  exact ⟨rest, rfl, hword ▸ List.nil_infix⟩

/-- A word that was read is behind the name. -/
theorem Spells.named {format name : String} {f : List Directive} {w : List UInt8}
    (F : Spells format name f) (h : .str w ∈ scan format content) :
    ∃ rest, content = text name ++ rest ∧ w <:+: rest := by
  have hne : sscanf (lits (text name) ++ f) (cstr content) ≠ [] := by
    rw [← F.eq]
    exact List.ne_nil_of_mem h
  obtain ⟨rest, hrest⟩ := prefix_of_sscanf _ hne
  obtain ⟨tail, htail⟩ : cstr content <+: content := List.takeWhile_prefix _
  refine ⟨rest ++ tail, by rw [← List.append_assoc, hrest, htail], ?_⟩
  rw [scan, F.eq, ← hrest, sscanf_lits] at h
  exact (sscanf_wellFormed _ _ _ h).2.trans (List.prefix_append rest tail).isInfix

/-- The last 64 bytes of a datagram that is long enough are the text of a digest, whatever they are. -/
theorem exists_hex (h : 64 < content.length) : ∃ hex : Hex, chars hex.1 = hexOf content :=
  ⟨⟨content.drop (content.length - 64), by rw [List.length_drop]; omega⟩, rfl⟩

theorem leBytes_le (buf : List UInt8) (n off : Nat) (h : off + n ≤ buf.length) :
    leBytes n (le buf off n) = (buf.drop off).take n := by
  induction n generalizing off with
  | zero => rfl
  | succ n ih =>
    have hoff : off < buf.length := by omega
    have hget : buf.getD off 0 = buf[off] := List.getD_eq_getElem buf 0 hoff
    have hlow : UInt8.ofNat ((buf[off]).toNat + 256 * le buf (off + 1) n) = buf[off] := by
      apply UInt8.toNat_inj.mp
      rw [UInt8.toNat_ofNat']
      have hlt := (buf[off]).toNat_lt
      omega
    have hhigh : ((buf[off]).toNat + 256 * le buf (off + 1) n) / 256 = le buf (off + 1) n := by
      have hlt := (buf[off]).toNat_lt
      omega
    rw [Elf.le_succ, Elf.leBytes_succ, hget, hlow, hhigh, ih (off + 1) (by omega),
      List.drop_eq_getElem_cons hoff, List.take_succ_cons]

/-- A `write-buffer` datagram means a write, or nothing if it has no room for an offset. -/
theorem means_write (h : startsWith content "write-buffer" = true) : ∃ r, Means content r := by
  by_cases hshort : (content.drop 12).length < 8
  · refine ⟨none, fun c e s => Or.inr ?_⟩
    rw [process_write h, writeRequest, if_pos hshort]
  · obtain ⟨off, hoff⟩ := exists_u64 (Elf.le_lt (content.drop 12) 0 8)
    refine ⟨some (.write off ((content.drop 12).drop 8)),
      named_of_starts rfl (List.isPrefixOf_iff_prefix.mp h), fun c e s => ?_⟩
    have hbytes := leBytes_le (content.drop 12) 8 0 (by omega)
    rw [List.drop_zero, ← hoff] at hbytes
    rw [process_write h, Request.perform, hbytes, List.take_append_drop]

theorem means_judge {ns : List Nat} (h : numbers (scan judgeFormat content) = ns) (hns : ns.length = 16) :
    ∃ r, Means content r := by
  have hlt : ∀ x ∈ ns, x < 2 ^ 64 := by
    intro x hx
    rw [← h, numbers, List.mem_filterMap] at hx
    obtain ⟨v, hv, hvx⟩ := hx
    cases v with
    | str w => cases hvx
    | num y =>
      cases hvx
      exact sscanf_wellFormed _ _ _ hv
  have hnumbers : judgeNumbers (fun i => UInt64.ofNat (ns.getD i 0)) = ns := by
    refine List.ext_getElem (by rw [judgeNumbers, List.length_map, List.length_ofFn, hns]) fun i hi hi' => ?_
    simp only [judgeNumbers, List.getElem_map, List.getElem_ofFn]
    rw [List.getD_eq_getElem _ _ hi', UInt64.toNat_ofNat_of_lt' (hlt _ (List.getElem_mem hi'))]
  have hname : text "judge" <+: content := by
    refine spells_judge.starts fun hnil => ?_
    rw [hnil] at h
    rw [← h] at hns
    exact absurd hns (by decide)
  refine ⟨some (.judge fun i => UInt64.ofNat (ns.getD i 0)), named_of_starts rfl hname, fun c e s => ?_⟩
  rw [process_judge h hns, Request.perform, hnumbers]

/-- What `encode` gives is named after the request. -/
theorem named_encode (r : Request) : r.Named r.encode := by
  cases r with
  | loadCache name off len hex =>
    refine ⟨_, rfl, ?_⟩
    rw [List.append_assoc]
    exact (List.prefix_append _ _).isInfix.trans (List.suffix_append _ _).isInfix
  | storeCache name off len hex =>
    refine ⟨_, rfl, ?_⟩
    rw [List.append_assoc]
    exact (List.prefix_append _ _).isInfix.trans (List.suffix_append _ _).isInfix
  | infoCache name => exact ⟨_, rfl, (List.suffix_append _ _).isInfix⟩
  | _ => exact named_of_starts rfl (List.prefix_append _ _)

/-- A datagram that is an encoded request means it. -/
theorem means_encode (r : Request) : Means r.encode (some r) :=
  ⟨named_encode r, fun c e s => process_encode c e s r⟩

theorem means_of_eq {r : Request} (h : content = r.encode) : ∃ r, Means content r :=
  ⟨some r, h ▸ means_encode r⟩

/-- Either a datagram means something, or `process_controls` does not know it in any state. -/
theorem controls_cases (content : List UInt8) :
    (∃ r, Means content r) ∨ ∀ c e s, processControls c e s content = .unknown := by
  by_cases huptime : content = text "uptime"
  · exact Or.inl (means_of_eq (r := .uptime) huptime)
  by_cases hstatistics : content = text "statistics"
  · exact Or.inl (means_of_eq (r := .statistics) hstatistics)
  by_cases htemp : content = text "cpu-temp"
  · exact Or.inl (means_of_eq (r := .cpuTemp) htemp)
  by_cases hsysinfo : content = text "sysinfo"
  · exact Or.inl (means_of_eq (r := .sysinfo) hsysinfo)
  refine Or.inr fun c e s => ?_
  simp only [processControls, equalsTo, beq_iff_eq, huptime, hstatistics, htemp, hsysinfo, if_false]

theorem data_cases (content : List UInt8) :
    (∃ r, Means content r) ∨ ∀ s, processData content s = .ok (s, .unknown) := by
  -- one format after the other: if all fields are read the datagram means that request, and
  -- otherwise the function goes on
  by_cases hsize : content = text "query-buffer-size"
  · exact Or.inl (means_of_eq (r := .queryBufferSize) hsize)
  by_cases hclear : ∃ off len, scan "clear-buffer %lu %lu" content = [.num off, .num len]
  · obtain ⟨off, len, h⟩ := hclear
    obtain ⟨off, rfl⟩ := scan_lt (h ▸ List.mem_cons_self)
    obtain ⟨len, rfl⟩ := scan_lt (h ▸ List.mem_cons_of_mem _ List.mem_cons_self)
    exact Or.inl ⟨some (.clear off len),
      named_of_starts rfl (spells_clear.starts_of_cons h), fun c e s => process_clear h⟩
  by_cases hread : ∃ off len, scan "read-buffer %lu %lu" content = [.num off, .num len]
  · obtain ⟨off, len, h⟩ := hread
    obtain ⟨off, rfl⟩ := scan_lt (h ▸ List.mem_cons_self)
    obtain ⟨len, rfl⟩ := scan_lt (h ▸ List.mem_cons_of_mem _ List.mem_cons_self)
    exact Or.inl ⟨some (.read off len),
      named_of_starts rfl (spells_read.starts_of_cons h), fun c e s => process_read h⟩
  by_cases hwrite : startsWith content "write-buffer" = true
  · exact Or.inl (means_write hwrite)
  by_cases hcopy : ∃ off off2 len, scan "copy-buffer %lu %lu %lu" content = [.num off, .num off2, .num len]
  · obtain ⟨off, off2, len, h⟩ := hcopy
    obtain ⟨off, rfl⟩ := scan_lt (h ▸ List.mem_cons_self)
    obtain ⟨off2, rfl⟩ := scan_lt (h ▸ List.mem_cons_of_mem _ List.mem_cons_self)
    obtain ⟨len, rfl⟩ := scan_lt (h ▸ List.mem_cons_of_mem _ (List.mem_cons_of_mem _ List.mem_cons_self))
    exact Or.inl ⟨some (.copy off off2 len),
      named_of_starts rfl (spells_copy.starts_of_cons h), fun c e s => process_copy h⟩
  by_cases hcompare : ∃ off off2 len,
      scan "compare-buffer %lu %lu %lu" content = [.num off, .num off2, .num len]
  · obtain ⟨off, off2, len, h⟩ := hcompare
    obtain ⟨off, rfl⟩ := scan_lt (h ▸ List.mem_cons_self)
    obtain ⟨off2, rfl⟩ := scan_lt (h ▸ List.mem_cons_of_mem _ List.mem_cons_self)
    obtain ⟨len, rfl⟩ := scan_lt (h ▸ List.mem_cons_of_mem _ (List.mem_cons_of_mem _ List.mem_cons_self))
    exact Or.inl ⟨some (.compare off off2 len),
      named_of_starts rfl (spells_compare.starts_of_cons h), fun c e s => process_compare h⟩
  refine Or.inr fun s => ?_
  rw [processData, if_neg (by rw [equalsTo, beq_iff_eq]; exact hsize)]
  split
  · rename_i off len h
    exact absurd ⟨off, len, h⟩ hclear
  split
  · rename_i off len h
    exact absurd ⟨off, len, h⟩ hread
  rw [if_neg hwrite]
  split
  · rename_i off off2 len h
    exact absurd ⟨off, off2, len, h⟩ hcopy
  split
  · rename_i off off2 len h
    exact absurd ⟨off, off2, len, h⟩ hcompare
  rfl

theorem judge_cases (content : List UInt8) :
    (∃ r, Means content r) ∨ ∀ c e s, processJudge c e content s = .ok (s, .unknown) := by
  by_cases hjudge : (numbers (scan judgeFormat content)).length = 16
  · exact Or.inl (means_judge rfl hjudge)
  · refine Or.inr fun c e s => ?_
    simp only [processJudge, hjudge, if_false]

theorem cache_cases (content : List UInt8) :
    (∃ r, Means content r) ∨ ∀ c e s, processCache c e content s = .ok (s, .unknown) := by
  by_cases hload : ∃ w off len, scanCache "load-cache %s %lu %lu" content = [.str w, .num off, .num len]
  · obtain ⟨w, off, len, h⟩ := hload
    obtain ⟨hlen, hscan⟩ := scan_of_scanCache h (List.cons_ne_nil _ _)
    obtain ⟨name, rfl⟩ := scan_name (hscan ▸ List.mem_cons_self)
    obtain ⟨off, rfl⟩ := scan_lt (hscan ▸ List.mem_cons_of_mem _ List.mem_cons_self)
    obtain ⟨len, rfl⟩ := scan_lt (hscan ▸ List.mem_cons_of_mem _ (List.mem_cons_of_mem _ List.mem_cons_self))
    obtain ⟨hex, hhex⟩ := exists_hex hlen
    exact Or.inl ⟨some (.loadCache name off len hex),
      spells_load.named (hscan ▸ List.mem_cons_self),
      fun c e s => by rw [process_load h, ← hhex]; rfl⟩
  by_cases hstore : ∃ w off len, scanCache "store-cache %s %lu %lu" content = [.str w, .num off, .num len]
  · obtain ⟨w, off, len, h⟩ := hstore
    obtain ⟨hlen, hscan⟩ := scan_of_scanCache h (List.cons_ne_nil _ _)
    obtain ⟨name, rfl⟩ := scan_name (hscan ▸ List.mem_cons_self)
    obtain ⟨off, rfl⟩ := scan_lt (hscan ▸ List.mem_cons_of_mem _ List.mem_cons_self)
    obtain ⟨len, rfl⟩ := scan_lt (hscan ▸ List.mem_cons_of_mem _ (List.mem_cons_of_mem _ List.mem_cons_self))
    obtain ⟨hex, hhex⟩ := exists_hex hlen
    exact Or.inl ⟨some (.storeCache name off len hex),
      spells_store.named (hscan ▸ List.mem_cons_self),
      fun c e s => by rw [process_store h, ← hhex]; rfl⟩
  by_cases hinfo : ∃ w, scan "info-cache %s" content = [.str w]
  · obtain ⟨w, h⟩ := hinfo
    obtain ⟨name, rfl⟩ := scan_name (h ▸ List.mem_cons_self)
    exact Or.inl ⟨some (.infoCache name),
      spells_info.named (h ▸ List.mem_cons_self),
      fun c e s => process_info h⟩
  refine Or.inr fun c e s => ?_
  rw [processCache]
  split
  · rename_i w off len h
    exact absurd ⟨w, off, len, h⟩ hload
  split
  · rename_i w off len h
    exact absurd ⟨w, off, len, h⟩ hstore
  split
  · rename_i w h
    exact absurd ⟨w, h⟩ hinfo
  rfl

/-- **Every datagram means a request or nothing**, and the same in every state. -/
theorem exists_meaning (content : List UInt8) : ∃ r, Means content r := by
  rcases controls_cases content with h | hcontrols
  · exact h
  rcases data_cases content with h | hdata
  · exact h
  rcases judge_cases content with h | hjudge
  · exact h
  rcases cache_cases content with h | hcache
  · exact h
  by_cases hall : content = text "query-all"
  · exact means_of_eq (r := .queryAll) hall
  · refine ⟨none, fun c e s => Or.inl ?_⟩
    rw [process, orElse_unknown (by rw [hcontrols]), orElse_unknown (hdata s),
      orElse_unknown (hjudge c e s), orElse_unknown (hcache c e s), processSpecial_unknown hall]

end Meaning

/-! ## Decoding -/

section Decoding

variable {r r' : Request}

/-- The names of the requests. -/
def names : List String :=
  ["uptime", "statistics", "cpu-temp", "sysinfo", "query-buffer-size", "clear-buffer", "read-buffer",
    "write-buffer", "copy-buffer", "compare-buffer", "judge", "load-cache", "store-cache", "info-cache",
    "query-all"]

theorem name_mem (r : Request) : r.name ∈ names := by
  cases r <;> simp [Request.name, names]

/-- No name starts with another one. -/
theorem eq_of_starts : ∀ a ∈ names, ∀ b ∈ names, text a <+: text b → a = b := by
  decide +kernel

theorem name_eq_of_encode (h : r.encode = r'.encode) : r.name = r'.name := by
  have hr : text r.name <+: r'.encode := h ▸ starts_of_named (named_encode r)
  have hr' := starts_of_named (named_encode r')
  rcases List.prefix_or_prefix_of_prefix hr hr' with hle | hle
  · exact eq_of_starts _ (name_mem r) _ (name_mem r') hle
  · exact (eq_of_starts _ (name_mem r') _ (name_mem r) hle).symm

/-- Numbers that are printed in the same way are the same. -/
theorem Spells.eq_of_spaced {format name : String} {bs : List Bool} (F : Spells format name (fields bs))
    {l l' : List UInt64} (hl : bs.length = l.length) (hl' : bs.length = l'.length)
    (h : text name ++ spaced (l.map UInt64.toNat) = text name ++ spaced (l'.map UInt64.toNat)) : l = l' := by
  have hscan := F.scan_spaced l hl
  rw [h, F.scan_spaced l' hl'] at hscan
  have hnum : Function.Injective Scanned.num := fun x y hxy => Scanned.num.inj hxy
  have htoNat : Function.Injective UInt64.toNat := fun x y hxy => UInt64.toNat_inj.mp hxy
  exact (htoNat.list_map (hnum.list_map hscan)).symm

theorem Spells.eq_of_cacheText {format name : String}
    (F : Spells format name (.space :: .str :: fields [true, true])) {w w' : Name}
    {off len off' len' : UInt64} {hex hex' : Hex}
    (h : text name ++ (text " " ++ w.1 ++ (spaced [off.toNat, len.toNat] ++ (text " " ++ hex.1))) =
      text name ++ (text " " ++ w'.1 ++ (spaced [off'.toNat, len'.toNat] ++ (text " " ++ hex'.1)))) :
    w = w' ∧ off = off' ∧ len = len' ∧ hex = hex' := by
  have hscan := (F.scanCache_encoded w off len hex).1
  rw [h, (F.scanCache_encoded w' off' len' hex').1] at hscan
  obtain ⟨hw, hoff, hlen⟩ : w' = w ∧ off' = off ∧ len' = len := by
    simp only [List.cons.injEq, Scanned.str.injEq, Scanned.num.injEq, UInt64.toNat_inj, and_true] at hscan
    exact ⟨Subtype.ext hscan.1, hscan.2⟩
  subst hw hoff hlen
  refine ⟨rfl, rfl, rfl, Subtype.ext ?_⟩
  -- what comes before the digest is the same
  have hrest := List.append_cancel_left (List.append_cancel_left (List.append_cancel_left h))
  exact List.append_cancel_left hrest

theorem eq_of_leBytes {off off' : UInt64} {data data' : List UInt8}
    (h : leBytes 8 off.toNat ++ data = leBytes 8 off'.toNat ++ data') : off = off' ∧ data = data' := by
  have hlen : ∀ x, (leBytes 8 x).length = 8 := fun x => by rw [leBytes, List.length_map, List.length_range]
  obtain ⟨hoff, hdata⟩ := List.append_inj h ((hlen _).trans (hlen _).symm)
  have hread : ∀ x : UInt64, le (leBytes 8 x.toNat) 0 8 = x.toNat := by
    intro x
    have hle := Elf.le_leBytes 8 x.toNat []
    rw [List.append_nil] at hle
    exact hle.trans (Nat.mod_eq_of_lt x.toNat_lt)
  have htoNat : off.toNat = off'.toNat := by rw [← hread off, hoff, hread off']
  exact ⟨UInt64.toNat_inj.mp htoNat, hdata⟩

/-- **No two requests are encoded in the same way.** -/
theorem encode_injective (h : r.encode = r'.encode) : r = r' := by
  have hname := name_eq_of_encode h
  cases r <;> cases r'
  -- requests of one kind: what is printed can be read back
  case clear.clear off len off' len' =>
    have hl : [off, len] = [off', len'] := spells_clear.eq_of_spaced rfl rfl h
    cases hl
    rfl
  case read.read off len off' len' =>
    have hl : [off, len] = [off', len'] := spells_read.eq_of_spaced rfl rfl h
    cases hl
    rfl
  case write.write off data off' data' =>
    obtain ⟨rfl, rfl⟩ := eq_of_leBytes (List.append_cancel_left h)
    rfl
  case copy.copy dstOff srcOff len dstOff' srcOff' len' =>
    have hl : [dstOff, srcOff, len] = [dstOff', srcOff', len'] := spells_copy.eq_of_spaced rfl rfl h
    cases hl
    rfl
  case compare.compare off1 off2 len off1' off2' len' =>
    have hl : [off1, off2, len] = [off1', off2', len'] := spells_compare.eq_of_spaced rfl rfl h
    cases hl
    rfl
  case judge.judge n n' =>
    have hl : List.ofFn n = List.ofFn n' :=
      spells_judge.eq_of_spaced (by rw [List.length_ofFn]; rfl) (by rw [List.length_ofFn]; rfl) h
    rw [List.ofFn_injective hl]
  case loadCache.loadCache name off len hex name' off' len' hex' =>
    obtain ⟨rfl, rfl, rfl, rfl⟩ := spells_load.eq_of_cacheText h
    rfl
  case storeCache.storeCache name off len hex name' off' len' hex' =>
    obtain ⟨rfl, rfl, rfl, rfl⟩ := spells_store.eq_of_cacheText h
    rfl
  case infoCache.infoCache name name' =>
    have hword := List.append_cancel_left (List.append_cancel_left h)
    rw [Subtype.ext hword]
  -- the names of the other kinds differ
  all_goals first
    | rfl
    | exact absurd hname (by simp [Request.name])

/-- **The wire format can be decoded**: every datagram has one meaning, and that of an encoded request is the
    request. -/
theorem exists_decoder : ∃ decode : List UInt8 → Option Request,
    (∀ r, decode r.encode = some r) ∧ ∀ content, Means content (decode content) := by
  classical
  refine ⟨fun content => if h : ∃ r : Request, r.encode = content then some h.choose
    else (exists_meaning content).choose, ?_, ?_⟩
  · intro r
    have h : ∃ r' : Request, r'.encode = r.encode := ⟨r, rfl⟩
    simp only [dif_pos h]
    exact congrArg some (encode_injective h.choose_spec)
  · intro content
    by_cases h : ∃ r : Request, r.encode = content
    · simp only [dif_pos h]
      have hmeans := means_encode h.choose
      rw [h.choose_spec] at hmeans
      exact hmeans
    · simp only [dif_neg h]
      exact (exists_meaning content).choose_spec

end Decoding

end JudgeDuck.DuckServer
