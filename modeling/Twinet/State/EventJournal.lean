import Mathlib.Algebra.Group.Nat.Defs
import Twinet.Lib.Lines
import Twinet.Lib.Machine

/-!
# The Journal of Events

The events of a node are kept in a file of lines, one encoded event each. An append
writes a line to the end of the file and syncs it. A rotation replaces the file by the
lines that are kept. After a restart the lines of the file are read back, and a line
that was not ended is left out.

An append that fails or is cut off by a crash can leave the beginning of a line at
the end of the file. The append after it does not look, and goes on with that line.

The model says of every byte which write it came from, so that a line made by two
writes can be told from one made by one. What is stored and read are the bytes alone.

## Main definitions

* `eventJournalLines`: The lines that are read back.
* `appendEventJournal`, `rotateEventJournal`: The two writes.
* `journals`: The journal as a machine, with the write each byte came from.
* `Exact`: What a journal should be.

## Theorems

* `bytes_run`: The writes are of no account to the file.
* `SoundLog.append`, `SoundLog.of_append`: What a write and a crash leave.
* `event_journal_exact_iff`: When the journal is exact in every run.
-/

namespace Twinet

namespace State

open List Lines Nat
open Option (map_some mem_def some)

/-! ### Lines -/

def newline : UInt8 := 10

/-- The characters that are white space, as they are encoded. -/
def spaces : List (List UInt8) :=
  [[9], [10], [11], [12], [13], [32], [0xC2, 0x85], [0xC2, 0xA0], [0xE1, 0x9A, 0x80]] ++
    (range 11).map (fun i => [0xE2, 0x80, 0x80 + i.toUInt8]) ++
    [[0xE2, 0x80, 0xA8], [0xE2, 0x80, 0xA9], [0xE2, 0x80, 0xAF], [0xE2, 0x81, 0x9F],
      [0xE3, 0x80, 0x80]]

/-- How many bytes some words take at the beginning, one after the other. -/
def skip (words : List (List UInt8)) : Nat → List UInt8 → Nat
  | 0, _ => 0
  | fuel + 1, l =>
    match words.find? (·.isPrefixOf l) with
    | none => 0
    | some word => word.length + skip words fuel (l.drop word.length)

section Reading

variable {α : Type} (byte : α → UInt8)

def trimLeft (words : List (List UInt8)) (line : List α) : List α :=
  line.drop (skip words line.length (line.map byte))

def trimSpace (line : List α) : List α :=
  (trimLeft byte (spaces.map reverse) (trimLeft byte spaces line).reverse).reverse

/-- The lines of a file that are ended and not blank. The entries of the file may be
    more than bytes. -/
def linesBy (raw : List α) : List (List α) :=
  ((complete (fun a => byte a = newline) raw).map (trimSpace byte)).filter (!·.isEmpty)

end Reading

def eventJournalLines (raw : List UInt8) : List (List UInt8) := linesBy id raw

/-! ### The file -/

/-- A file that is written to at its end. A crash can cut short what was not synced. -/
structure LogFile (α : Type) where
  synced : List α
  pending : List α

def eventJournalMaxBytes : Nat := 8 * 2 ^ 20

/-- What becomes of the write of a line. A write that fails can have written a part. -/
inductive AppendOutcome where
  | openFails
  | writeFails (k : Nat)
  | syncFails
  | statFails
  | done
deriving DecidableEq, Repr

inductive AppendError where
  | opening
  | appending
  | syncing
deriving DecidableEq, Repr

/-- What becomes of a rotation. The superseded form of the journal is removed after the
    file was replaced. -/
inductive RotateOutcome where
  | writeFails
  | removeFails
  | done
deriving DecidableEq, Repr

inductive RotateError where
  | writing
  | removing
deriving DecidableEq, Repr

namespace LogFile

variable {α β : Type} (f : LogFile α)

def content : List α := f.synced ++ f.pending

def map (g : α → β) : LogFile β := ⟨f.synced.map g, f.pending.map g⟩

/-- Write a line and sync it. A write that succeeds says whether the file is too long. -/
def append (line : List α) : AppendOutcome → LogFile α × Except AppendError Bool
  | .openFails => (f, .error .opening)
  | .writeFails k => ({ f with pending := f.pending ++ line.take k }, .error .appending)
  | .syncFails => ({ f with pending := f.pending ++ line }, .error .syncing)
  | .statFails => (⟨f.content ++ line, []⟩, .ok false)
  | .done =>
    (⟨f.content ++ line, []⟩, .ok (eventJournalMaxBytes < (f.content ++ line).length))

/-- Replace the file in one step, or leave it. -/
def replace (written : List α) : RotateOutcome → LogFile α × Option RotateError
  | .writeFails => (f, some .writing)
  | .removeFails => (⟨written, []⟩, some .removing)
  | .done => (⟨written, []⟩, none)

/-- A crash leaves some part of what was not synced. -/
def crash (k : Nat) : LogFile α := ⟨f.synced ++ f.pending.take k, []⟩

end LogFile

open LogFile

def appendEventJournal (f : LogFile UInt8) (raw : List UInt8) (o : AppendOutcome) :
    LogFile UInt8 × Except AppendError Bool :=
  if raw = [] then (f, .ok false) else f.append (raw ++ [newline]) o

def rotateEventJournal (f : LogFile UInt8) (lines : List (List UInt8)) (o : RotateOutcome) :
    LogFile UInt8 × Option RotateError :=
  f.replace ((lines.filter (· ≠ [])).flatMap (· ++ [newline])) o

/-! ### Runs -/

/-- An event as it is encoded: an object on one line. -/
structure EncodedEvent where
  bytes : List UInt8
  opened : bytes.head? = some 123
  closed : bytes.getLast? = some 125
  unbroken : newline ∉ bytes
deriving DecidableEq

/-- What happens to a journal. An append that a crash cuts off is one whose write fails,
    and a crash. -/
inductive JournalAction where
  | append (e : EncodedEvent) (o : AppendOutcome)
  | rotate (kept : List EncodedEvent) (o : RotateOutcome)
  | crash (k : Nat)
  | restart

/-- The file after an action. -/
def storeStep (f : LogFile UInt8) : JournalAction → LogFile UInt8
  | .append e o => (appendEventJournal f e.bytes o).1
  | .rotate kept o => (rotateEventJournal f (kept.map EncodedEvent.bytes) o).1
  | .crash k => f.crash k
  | .restart => f

/-- A byte with the number of the write it came from. -/
structure Mark where
  writer : Nat
  byte : UInt8
deriving DecidableEq

open Mark

/-- The bytes of a line, as one write has them. -/
def marked (writer : Nat) (line : List UInt8) : List Mark := line.map (mk writer)

def markedLine (writer : Nat) (e : EncodedEvent) : List Mark :=
  marked writer e.bytes ++ [⟨writer, newline⟩]

/-- A journal with what is known of its bytes. -/
structure Journal where
  file : LogFile Mark
  /-- The number of the next write. -/
  next : Nat
  /-- The events whose append succeeded and that no rotation dropped since. -/
  held : List EncodedEvent

/-- What is left of the events when a file was replaced by the lines of some. -/
def keepHeld (held kept : List EncodedEvent) : RotateOutcome → List EncodedEvent
  | .writeFails => held
  | _ => held.filter (· ∈ kept)

/-- The lines of a rotation, each a write of its own. -/
def rotatedContent (kept : List EncodedEvent) (next : Nat) : List Mark :=
  (kept.zipIdx next).flatMap fun e => markedLine e.2 e.1

/-- One action, with the lines a restart reads. -/
def journalStep (j : Journal) : JournalAction → Journal × List (List (List UInt8))
  | .append e o =>
    let (file, result) := j.file.append (markedLine j.next e) o
    ({ file := file, next := j.next + 1
       held := if result.isOk then j.held ++ [e] else j.held }, [])
  | .rotate kept o =>
    ({ file := (j.file.replace (rotatedContent kept j.next) o).1
       next := j.next + kept.length, held := keepHeld j.held kept o }, [])
  | .crash k => ({ j with file := j.file.crash k }, [])
  | .restart => (j, [eventJournalLines (j.file.content.map byte)])

def journals : Machine Journal JournalAction (List (List UInt8)) := ⟨journalStep⟩

def Journal.empty : Journal := ⟨⟨[], []⟩, 0, []⟩

/-- Every event that was appended and not dropped is read back, and no line that is read
    back was made by two writes. -/
def Exact (j : Journal) : Prop :=
  (∀ e ∈ j.held, e.bytes ∈ eventJournalLines (j.file.content.map byte)) ∧
    ∀ line ∈ linesBy byte j.file.content, ∀ a ∈ line, ∀ b ∈ line, a.writer = b.writer

/-! ### The bytes alone -/

variable (kept : List EncodedEvent) (e : EncodedEvent) (next writer : Nat)

theorem map_byte_marked (line : List UInt8) : (marked writer line).map byte = line := by
  rw [marked, map_map]
  exact map_id line

theorem map_byte_markedLine (e : EncodedEvent) :
    (markedLine writer e).map byte = e.bytes ++ [newline] := by
  rw [markedLine, map_append, map_byte_marked]
  rfl

theorem map_byte_rotatedContent :
    (rotatedContent kept next).map byte =
      (kept.map EncodedEvent.bytes).flatMap (· ++ [newline]) := by
  unfold rotatedContent
  induction kept generalizing next with
  | nil => rfl
  | cons e kept ih =>
    rw [zipIdx_cons, flatMap_cons, map_append, ih, map_byte_markedLine]
    rfl

theorem EncodedEvent.bytes_ne_nil : e.bytes ≠ [] := fun h => by
  have hopened := e.opened
  rw [h] at hopened
  cases hopened

theorem bytes_journalStep (j : Journal) (a : JournalAction) :
    (journalStep j a).1.file.map byte = storeStep (j.file.map byte) a := by
  cases a with
  | append e o =>
    simp only [journalStep, storeStep, appendEventJournal, if_neg e.bytes_ne_nil]
    cases o <;>
      simp [LogFile.append, LogFile.map, LogFile.content, map_byte_markedLine, map_take]
  | rotate kept o =>
    have hkept : (kept.map EncodedEvent.bytes).filter (· ≠ []) = kept.map EncodedEvent.bytes := by
      rw [filter_eq_self, forall_mem_map]
      exact fun e _ => decide_eq_true e.bytes_ne_nil
    simp only [journalStep, storeStep, rotateEventJournal, hkept, ← map_byte_rotatedContent
      kept j.next]
    cases o <;> rfl
  | crash k => simp [journalStep, storeStep, LogFile.crash, LogFile.map, map_take]
  | restart => rfl

/-- In every run the file is as it is without the marks. -/
theorem bytes_run (j : Journal) (acts : List JournalAction) :
    (journals.run j acts).file.map byte = acts.foldl storeStep (j.file.map byte) := by
  induction acts generalizing j with
  | nil => rfl
  | cons a acts ih => exact (ih _).trans (congrArg (acts.foldl storeStep) (bytes_journalStep j a))

/-! ### What is read back -/

section Reading

variable {α : Type} {byte : α → UInt8} {l : List α}

theorem mem_of_mem_trimLeft {words : List (List UInt8)} {line : List α} {a : α}
    (h : a ∈ trimLeft byte words line) : a ∈ line := mem_of_mem_drop h

theorem mem_of_mem_trimSpace {line : List α} {a : α} (h : a ∈ trimSpace byte line) :
    a ∈ line :=
  mem_of_mem_trimLeft (mem_reverse.mp (mem_of_mem_trimLeft (mem_reverse.mp h)))

/-- Nothing is trimmed that begins with a byte no word begins with. -/
theorem trimLeft_of_head {words : List (List UInt8)} {line : List α} {b : UInt8}
    (hwords : ∀ word ∈ words, word.head?.all (· ≠ b) ∧ word ≠ [])
    (hhead : line.head?.map byte = some b) : trimLeft byte words line = line := by
  cases line with
  | nil => rfl
  | cons a line =>
    obtain rfl := some.inj hhead
    have hnone : words.find? (·.isPrefixOf ((a :: line).map byte)) = none := by
      rw [find?_eq_none]
      intro word hword hprefix
      obtain ⟨hfirst, hne⟩ := hwords word hword
      obtain ⟨c, word, rfl⟩ := exists_cons_of_ne_nil hne
      simp_all
    rw [trimLeft, length_cons, skip, hnone]
    rfl

theorem trimSpace_of_braces {line : List α} (hopened : line.head?.map byte = some 123)
    (hclosed : line.getLast?.map byte = some 125) : trimSpace byte line = line := by
  rw [trimSpace, trimLeft_of_head (by decide) hopened, trimLeft_of_head (b := 125) (by decide),
    reverse_reverse]
  rwa [head?_reverse]

theorem mem_linesBy {raw line : List α}
    (hmem : line ∈ complete (fun a => byte a = newline) raw)
    (hopened : line.head?.map byte = some 123) (hclosed : line.getLast?.map byte = some 125) :
    line ∈ linesBy byte raw := by
  have htrim := trimSpace_of_braces hopened hclosed
  refine mem_filter.mpr ⟨mem_map.mpr ⟨line, hmem, htrim⟩, ?_⟩
  cases line with
  | nil => cases hopened
  | cons a line => rfl

theorem exists_of_mem_linesBy {raw line : List α} (h : line ∈ linesBy byte raw) :
    ∃ whole ∈ complete (fun a => byte a = newline) raw, ∀ a ∈ line, a ∈ whole := by
  obtain ⟨whole, hwhole, rfl⟩ := mem_map.mp (mem_filter.mp h).1
  exact ⟨whole, hwhole, fun a ha => mem_of_mem_trimSpace ha⟩

end Reading

/-! ### What writes and crashes leave -/

section Braces

variable {α : Type} {byte : α → UInt8}

/-- Every line is in braces, and the rest begins like a line. -/
structure Braced (byte : α → UInt8) (content : List α) : Prop where
  opened : ∀ p ∈ pieces (fun a => byte a = newline) content, p ≠ [] →
    p.head?.map byte = some 123
  closed : ∀ line ∈ complete (fun a => byte a = newline) content,
    line.getLast?.map byte = some 125

namespace Braced

variable {content m : List α}

/-- The beginning of a braced log is braced. -/
theorem of_append {more : List α} (h : Braced byte (content ++ more)) : Braced byte content := by
  refine ⟨fun p hp hne => ?_, fun line hline => h.closed line (mem_complete_append hline)⟩
  obtain ⟨q, hq, u, rfl⟩ := prefix_of_mem_pieces_append (m := more) hp
  have hhead := h.opened _ hq (append_ne_nil_of_left_ne_nil hne u)
  rwa [head?_append_of_ne_nil _ hne] at hhead

theorem opened_rest (h : Braced byte content) (hm : ∀ a ∈ m.head?, byte a = 123)
    (hne : rest (fun a => byte a = newline) content ++ m ≠ []) :
    (rest (fun a => byte a = newline) content ++ m).head?.map byte = some 123 := by
  by_cases hbegun : rest (fun a => byte a = newline) content = []
  · rw [hbegun, nil_append] at hne ⊢
    obtain ⟨a, m, rfl⟩ := exists_cons_of_ne_nil hne
    exact congrArg some (hm a rfl)
  · rw [head?_append_of_ne_nil _ hbegun]
    exact h.opened _ (mem_append_right _ (mem_singleton_self _)) hbegun

section Write

variable (hfree : ∀ a ∈ m, decide (byte a = newline) = false) (hm : ∀ a ∈ m.head?, byte a = 123)

include hfree hm

theorem append_part (h : Braced byte content) : Braced byte (content ++ m) := by
  have hlines := complete_append_free content hfree
  refine ⟨?_, by rw [hlines]; exact h.closed⟩
  rw [pieces, hlines, rest_append_free content hfree]
  refine forall_mem_append.mpr ⟨fun p hp => h.opened p (mem_append_left _ hp),
    forall_mem_singleton.mpr (h.opened_rest hm)⟩

theorem append_line (h : Braced byte content) (hlast : m.getLast?.map byte = some 125) {s : α}
    (hs : byte s = newline) : Braced byte (content ++ (m ++ [s])) := by
  have hstop : decide (byte s = newline) = true := decide_eq_true hs
  have hne : m ≠ [] := fun hnil => by
    rw [hnil] at hlast
    cases hlast
  rw [← getLast?_append_of_ne_nil (rest (fun a => byte a = newline) content) hne]
    at hlast
  have hlines := complete_append_line content hfree hstop
  constructor
  · rw [pieces, hlines, rest_append_line content hfree hstop]
    refine forall_mem_append.mpr ⟨forall_mem_append.mpr
      ⟨fun p hp => h.opened p (mem_append_left _ hp),
        forall_mem_singleton.mpr (h.opened_rest hm)⟩,
      forall_mem_singleton.mpr fun hnil => absurd rfl hnil⟩
  · rw [hlines]
    exact forall_mem_append.mpr ⟨h.closed, forall_mem_singleton.mpr hlast⟩

end Write

theorem flatMap {ι : Type} {items : List ι} {line : ι → List α} {stop : ι → α}
    (hfree : ∀ i ∈ items, ∀ a ∈ line i, decide (byte a = newline) = false)
    (hstop : ∀ i, byte (stop i) = newline)
    (hopened : ∀ i ∈ items, (line i).head?.map byte = some 123)
    (hclosed : ∀ i ∈ items, (line i).getLast?.map byte = some 125) :
    Braced byte (items.flatMap fun i => line i ++ [stop i]) := by
  have hs : ∀ i, decide (byte (stop i) = newline) = true := fun i => decide_eq_true (hstop i)
  have hlines := complete_flatMap hfree hs
  constructor
  · rw [pieces, hlines, rest_flatMap hfree hs]
    refine forall_mem_append.mpr ⟨forall_mem_map.mpr fun i hi _ => hopened i hi,
      forall_mem_singleton.mpr fun hnil => absurd rfl hnil⟩
  · rw [hlines]
    exact forall_mem_map.mpr hclosed

end Braced

end Braces

/-- A mark that ends a line. -/
abbrev Mark.ends (m : Mark) : Bool := m.byte = newline

/-- A log whose lines were each made by one write, in braces, and whose rest begins like
    a line. -/
structure SoundLog (content : List Mark) (next : Nat) : Prop where
  tagged : ∀ m ∈ content, m.writer < next
  opened : ∀ p ∈ pieces ends content, p ≠ [] → p.head?.map byte = some 123
  closed : ∀ line ∈ complete ends content, line.getLast?.map byte = some 125
  single : ∀ line ∈ complete ends content, ∀ a ∈ line, ∀ b ∈ line, a.writer = b.writer

theorem marked_free : ∀ m ∈ marked writer e.bytes, ends m = false := by
  rw [marked, forall_mem_map]
  exact fun b hb => decide_eq_false fun h : b = newline => e.unbroken (h ▸ hb)

theorem head?_marked : (marked writer e.bytes).head?.map byte = some 123 := by
  rw [← head?_map, map_byte_marked, e.opened]

variable {m : Mark}

theorem byte_of_mem_head? (h : m ∈ (marked writer e.bytes).head?) : byte m = 123 := by
  have hhead := head?_marked e writer
  rw [mem_def.mp h] at hhead
  exact some.inj hhead

theorem getLast?_marked : (marked writer e.bytes).getLast?.map byte = some 125 := by
  rw [← getLast?_map, map_byte_marked, e.closed]

variable {writer : Nat}

theorem writer_of_mem_marked {line : List UInt8}
    (h : m ∈ marked writer line) : m.writer = writer := by
  obtain ⟨b, -, rfl⟩ := mem_map.mp h
  rfl

variable {e : EncodedEvent}

theorem writer_of_mem_markedLine (h : m ∈ markedLine writer e) : m.writer = writer := by
  rcases mem_append.mp h with hbyte | hend
  · exact writer_of_mem_marked hbyte
  · rw [mem_singleton.mp hend]

theorem complete_append_markedLine (content : List Mark) (writer : Nat) (e : EncodedEvent) :
    complete ends (content ++ markedLine writer e) =
      complete ends content ++
        [rest ends content ++ marked writer e.bytes] :=
  complete_append_line content (marked_free e writer) rfl

theorem marked_ne_nil (e : EncodedEvent) (writer : Nat) : marked writer e.bytes ≠ [] := fun h =>
  e.bytes_ne_nil (map_eq_nil_iff.mp h)

namespace SoundLog

variable {content : List Mark} {next : Nat}

theorem braced (h : SoundLog content next) : Braced byte content := ⟨h.opened, h.closed⟩

/-- The beginning of a sound log is sound. -/
theorem of_append {more : List Mark} (h : SoundLog (content ++ more) next) :
    SoundLog content next := by
  have hbraced := h.braced.of_append
  exact ⟨fun m hm => h.tagged m (mem_append_left _ hm), hbraced.opened, hbraced.closed,
    fun line hline => h.single line (mem_complete_append hline)⟩

section

variable (h : SoundLog content next)

include h

theorem mono {next' : Nat} (hle : next ≤ next') : SoundLog content next' :=
  { h with tagged := fun m hm => Nat.lt_of_lt_of_le (h.tagged m hm) hle }

theorem append_part (e : EncodedEvent) (k : Nat) :
    SoundLog (content ++ (marked next e.bytes).take k) (next + 1) := by
  have hfree : ∀ m ∈ (marked next e.bytes).take k, ends m = false :=
    fun m hm => marked_free e next m (mem_of_mem_take hm)
  have hfirst : ∀ m ∈ ((marked next e.bytes).take k).head?, byte m = 123 := fun m hm => by
    rw [head?_take] at hm
    split_ifs at hm
    · cases hm
    · exact byte_of_mem_head? e next hm
  have hbraced := h.braced.append_part hfree hfirst
  refine ⟨forall_mem_append.mpr ⟨fun m hm => lt_succ_of_lt (h.tagged m hm), ?_⟩,
    hbraced.opened, hbraced.closed, ?_⟩
  · intro m hm
    rw [writer_of_mem_marked (mem_of_mem_take hm)]
    exact lt_succ_self next
  · rw [complete_append_free content hfree]
    exact h.single

theorem append_line (e : EncodedEvent) (hrest : rest ends content = []) :
    SoundLog (content ++ markedLine next e) (next + 1) := by
  have hlines := complete_append_markedLine content next e
  rw [hrest, nil_append] at hlines
  have hbraced : Braced byte (content ++ markedLine next e) :=
    h.braced.append_line (marked_free e next) (fun m hm => byte_of_mem_head? e next hm)
      (getLast?_marked e next) rfl
  refine ⟨forall_mem_append.mpr ⟨fun m hm => lt_succ_of_lt (h.tagged m hm),
    fun m hm => ?_⟩, hbraced.opened, hbraced.closed, ?_⟩
  · rw [writer_of_mem_markedLine hm]
    exact lt_succ_self next
  · rw [hlines]
    refine forall_mem_append.mpr ⟨h.single, forall_mem_singleton.mpr ?_⟩
    exact fun a ha b hb => (writer_of_mem_marked ha).trans (writer_of_mem_marked hb).symm

end

end SoundLog

theorem complete_rotatedContent :
    complete ends (rotatedContent kept next) =
      (kept.zipIdx next).map fun e => marked e.2 e.1.bytes :=
  complete_flatMap (fun e _ => marked_free e.1 e.2) fun _ => rfl

theorem soundLog_rotatedContent : SoundLog (rotatedContent kept next) (next + kept.length) := by
  have hbraced : Braced byte (rotatedContent kept next) :=
    Braced.flatMap (fun e _ => marked_free e.1 e.2) (fun _ => rfl)
      (fun e _ => head?_marked e.1 e.2) (fun e _ => getLast?_marked e.1 e.2)
  refine ⟨fun m hm => ?_, hbraced.opened, hbraced.closed, ?_⟩
  · obtain ⟨⟨e, n⟩, he, hm⟩ := mem_flatMap.mp hm
    have hlt := snd_lt_add_of_mem_zipIdx he
    rw [writer_of_mem_markedLine hm]
    omega
  · rw [complete_rotatedContent, forall_mem_map]
    exact fun e _ a ha b hb => (writer_of_mem_marked ha).trans (writer_of_mem_marked hb).symm

/-! ### Exact journals -/

/-- How much of a line an append writes. -/
def AppendOutcome.count (length : Nat) : AppendOutcome → Nat
  | .openFails => 0
  | .writeFails k => k
  | _ => length

theorem LogFile.content_append {α : Type} (f : LogFile α) (line : List α) (o : AppendOutcome) :
    (f.append line o).1.content = f.content ++ line.take (o.count line.length) := by
  cases o <;> simp [append, content, AppendOutcome.count]

/-- An append that comes to the end of its line begins where no line was begun. -/
def AppendsWhole (j : Journal) : JournalAction → Prop
  | .append e o => e.bytes.length < o.count (e.bytes.length + 1) →
      rest ends j.file.content = []
  | _ => True

/-- The log is sound, and what was appended is on disk. -/
structure JournalSound (j : Journal) : Prop where
  log : SoundLog j.file.content j.next
  held : ∀ e ∈ j.held, ∃ line ∈ complete ends j.file.synced,
    line.map byte = e.bytes

theorem length_marked (writer : Nat) (line : List UInt8) :
    (marked writer line).length = line.length := length_map _

theorem length_markedLine (writer : Nat) (e : EncodedEvent) :
    (markedLine writer e).length = e.bytes.length + 1 := by
  rw [markedLine, length_append, length_marked]
  rfl

theorem take_concat {α : Type} (line : List α) (a : α) (k : Nat) :
    (line ++ [a]).take k = if line.length < k then line ++ [a] else line.take k := by
  by_cases hk : line.length < k
  · rw [if_pos hk]
    refine take_of_length_le ?_
    rw [length_append]
    exact hk
  · rw [if_neg hk]
    exact take_append_of_le_length (Nat.not_lt.mp hk)

theorem take_line (e : EncodedEvent) (writer k : Nat) :
    (markedLine writer e).take k =
      if e.bytes.length < k then markedLine writer e
      else (marked writer e.bytes).take k := by
  rw [markedLine, take_concat, length_marked]

theorem content_append_line (f : LogFile Mark) (e : EncodedEvent) (writer : Nat)
    (o : AppendOutcome) :
    (f.append (markedLine writer e) o).1.content = f.content ++
      if e.bytes.length < o.count (e.bytes.length + 1) then
        markedLine writer e
      else (marked writer e.bytes).take (o.count (e.bytes.length + 1)) := by
  rw [content_append, length_markedLine, take_line]

namespace JournalSound

variable {j : Journal}

theorem exact (h : JournalSound j) : Exact j := by
  constructor
  · intro e he
    obtain ⟨line, hline, hbytes⟩ := h.held e he
    have hmem : e.bytes ∈ complete (fun b => id b = newline)
        (j.file.content.map byte) := by
      rw [complete_map, ← hbytes]
      exact mem_map_of_mem (mem_complete_append hline)
    exact mem_linesBy hmem (by rw [Option.map_id, e.opened]; rfl)
      (by rw [Option.map_id, e.closed]; rfl)
  · intro line hline a ha b hb
    obtain ⟨whole, hwhole, hsub⟩ := exists_of_mem_linesBy hline
    exact h.log.single whole hwhole a (hsub a ha) b (hsub b hb)

variable {o : AppendOutcome}

theorem log_append (h : JournalSound j) (hwhole : AppendsWhole j (.append e o)) :
    SoundLog (j.file.append (markedLine j.next e) o).1.content
      (j.next + 1) := by
  rw [content_append_line]
  by_cases hk : e.bytes.length < o.count (e.bytes.length + 1)
  · rw [if_pos hk]
    exact h.log.append_line e (hwhole hk)
  · rw [if_neg hk]
    exact h.log.append_part e _

theorem held_append (h : JournalSound j) (hwhole : AppendsWhole j (.append e o)) :
    ∀ e' ∈ (if (j.file.append (markedLine j.next e) o).2.isOk
        then j.held ++ [e] else j.held),
      ∃ line ∈ complete ends
          (j.file.append (markedLine j.next e) o).1.synced,
        line.map byte = e'.bytes := by
  have hkept : ∀ e' ∈ j.held, ∃ line ∈ complete ends
      (j.file.content ++ markedLine j.next e),
      line.map byte = e'.bytes := fun e' he' => by
    obtain ⟨line, hline, hbytes⟩ := h.held e' he'
    exact ⟨line, mem_complete_append (mem_complete_append hline), hbytes⟩
  have hdone : rest ends j.file.content = [] →
      ∀ e' ∈ j.held ++ [e], ∃ line ∈ complete ends
        (j.file.content ++ markedLine j.next e),
        line.map byte = e'.bytes := fun hrest => by
    refine forall_mem_append.mpr ⟨hkept, forall_mem_singleton.mpr
      ⟨marked j.next e.bytes, ?_, map_byte_marked _ _⟩⟩
    rw [complete_append_markedLine, hrest]
    exact mem_append_right _ (mem_singleton_self _)
  cases o with
  | openFails | writeFails k | syncFails => exact h.held
  | statFails | done => exact hdone (hwhole (lt_succ_self _))

theorem replaced (j : Journal) (kept : List EncodedEvent) :
    JournalSound ⟨⟨rotatedContent kept j.next, []⟩, j.next + kept.length,
      j.held.filter (· ∈ kept)⟩ := by
  refine ⟨?_, fun e he => ?_⟩
  · rw [content, append_nil]
    exact soundLog_rotatedContent kept j.next
  · have hmem : e ∈ kept := of_decide_eq_true (mem_filter.mp he).2
    obtain ⟨i, hi, rfl⟩ := mem_iff_getElem.mp hmem
    refine ⟨marked (j.next + i) kept[i].bytes, ?_, map_byte_marked _ _⟩
    rw [complete_rotatedContent]
    refine mem_map.mpr ⟨(kept[i], j.next + i), ?_, rfl⟩
    exact mem_zipIdx_iff_le_and_getElem?_sub.mpr ⟨le_add_right _ _, by simp⟩

variable {a : JournalAction}

theorem step (h : JournalSound j) (hwhole : AppendsWhole j a) :
    JournalSound (journalStep j a).1 := by
  cases a with
  | append e o => exact ⟨h.log_append hwhole, h.held_append hwhole⟩
  | rotate kept o =>
    cases o with
    | writeFails => exact ⟨h.log.mono (le_add_right _ _), h.held⟩
    | removeFails | done => exact replaced j kept
  | crash k =>
    have hsplit : j.file.content =
        (j.file.synced ++ j.file.pending.take k) ++ j.file.pending.drop k := by
      rw [append_assoc, take_append_drop]
      rfl
    refine ⟨?_, fun e he => ?_⟩
    · have hlog := h.log
      rw [hsplit] at hlog
      show SoundLog ((j.file.synced ++ j.file.pending.take k) ++ []) j.next
      rw [append_nil]
      exact hlog.of_append
    · obtain ⟨line, hline, hbytes⟩ := h.held e he
      exact ⟨line, mem_complete_append hline, hbytes⟩
  | restart => exact h

theorem whole_of_exact (h : JournalSound j)
    (hexact : Exact (journalStep j a).1) : AppendsWhole j a := by
  cases a with
  | append e o =>
    intro hk
    -- the line would hold bytes of two events
    by_contra hrest
    have hcontent : (journalStep j (.append e o)).1.file.content =
        j.file.content ++ markedLine j.next e := by
      show (j.file.append (markedLine j.next e) o).1.content = _
      rw [content_append_line, if_pos hk]
    have hline : rest ends j.file.content ++ marked j.next e.bytes ∈
        complete ends (journalStep j (.append e o)).1.file.content := by
      rw [hcontent, complete_append_markedLine]
      exact mem_append_right _ (mem_singleton_self _)
    -- it opens with the brace of the old one and ends with the new one's
    have hopened : (rest ends j.file.content ++ marked j.next e.bytes).head?.map
        byte = some 123 := by
      rw [head?_append_of_ne_nil _ hrest]
      exact h.log.opened _ (mem_append_right _ (mem_singleton_self _)) hrest
    have hclosed : (rest ends j.file.content ++ marked j.next e.bytes).getLast?.map
        byte = some 125 := by
      rw [getLast?_append_of_ne_nil _ (marked_ne_nil e j.next)]
      exact getLast?_marked e j.next
    obtain ⟨old, hold⟩ := exists_mem_of_ne_nil _ hrest
    obtain ⟨new, hnew⟩ := exists_mem_of_ne_nil _ (marked_ne_nil e j.next)
    have hsame := hexact.2 _ (mem_linesBy hline hopened hclosed)
      old (mem_append_left _ hold) new (mem_append_right _ hnew)
    have hbefore := h.log.tagged old ((rest_sublist _).subset hold)
    rw [hsame, writer_of_mem_marked hnew] at hbefore
    exact Nat.lt_irrefl _ hbefore
  | rotate kept o | crash k | restart => trivial

end JournalSound

/-- In every run of appends, rotations, crashes and restarts, the journal is exact at every
    point exactly if each append that comes to the end of its line begins where no line
    was begun: the file is empty then or ends with a newline. -/
theorem event_journal_exact_iff (as : List JournalAction) :
    (∀ xs ys, as = xs ++ ys → Exact (journals.run .empty xs)) ↔
      journals.Along AppendsWhole .empty as := by
  refine journals.always_iff_along JournalSound Exact (fun j h => h.exact)
    (fun j a h hwhole => h.step hwhole) (fun j a h hexact => h.whole_of_exact hexact) ?_
  refine ⟨⟨nofun, fun p hp hne => ?_, ?_, ?_⟩, ?_⟩
  · exact absurd (mem_singleton.mp hp) hne
  · exact nofun
  · exact nofun
  · exact nofun

/-! ### An append after a torn one -/

def emptyObject : EncodedEvent where
  bytes := [123, 125]
  opened := rfl
  closed := rfl
  unbroken := by decide

/-- A crash cuts an append off after one byte, and the append after the restart
    succeeds. -/
def tornThenAppended : List JournalAction :=
  [.append emptyObject (.writeFails 1), .crash 1, .restart, .append emptyObject .done, .restart]

/-- The event that was appended is not read back. The line that is has a byte of the
    event before it. -/
theorem torn_append_swallows_next :
    ¬ Exact (journals.run .empty tornThenAppended) ∧
      (journals.run .empty tornThenAppended).held = [emptyObject] ∧
      eventJournalLines ((journals.run .empty tornThenAppended).file.content.map byte) =
        [[123, 123, 125]] := by
  have hheld : (journals.run .empty tornThenAppended).held = [emptyObject] := by decide +kernel
  have hread : eventJournalLines
      ((journals.run .empty tornThenAppended).file.content.map byte) = [[123, 123, 125]] := by
    decide +kernel
  refine ⟨fun hexact => ?_, hheld, hread⟩
  have hback := hexact.1 emptyObject (by rw [hheld]; exact mem_singleton_self _)
  rw [hread] at hback
  exact absurd hback (by decide)

end State

end Twinet
