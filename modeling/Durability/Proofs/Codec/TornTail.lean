import Durability.Proofs.Codec.RoundTrip
import Durability.Proofs.Codec.Stable

/-! Reading a log that breaks off. A frame that is there in full is read back whatever follows it,
and a piece of one is reported as cut off, so that a scan finds the records whose frames were
written in full and stops where the log ends. -/

namespace Durability.Codec

open Output Reader

theorem reads_kind (kind : RecordKind) : readKind.Reads [kind.id] kind := by
  refine ((readAs_uint8 kind.id).last ?_) rfl
  rw [RecordKind.ofId?_id]
  rfl

theorem reads_encodeFramed {version : Version} {record : Record} {frame : Bytes}
    (framed : encodeFramed version record = .ok frame) :
    frame ≠ [] ∧ (readFramed version).Reads frame (record.kept version) := by
  obtain ⟨payload, encoded, framed⟩ := bind_eq_ok_iff.1 framed
  cases framed
  exact ⟨List.cons_ne_nil _ _, (reads_kind record.kind).bind (reads_encode .checked encoded)⟩

/-! ### Scans -/

theorem scan_nil (version : Version) :
    scan version [] = { records := [], failure := none } := by
  rw [scan]
  exact if_pos rfl

theorem scan_of_ok {version : Version} {input rest : Bytes} {record : Record}
    (success : (readFramed version).run input = (.ok record, rest)) :
    scan version input = (scan version rest).cons record rest.length := by
  have nonempty : ¬ input.isEmpty = true := by
    intro empty
    have shorter := readFramed_shorter success
    rw [List.isEmpty_iff.1 empty] at shorter
    exact Nat.not_lt_zero _ shorter
  rw [scan, if_neg nonempty]
  split
  next found =>
    rw [success] at found
    cases found
    rfl
  next found =>
    rw [success] at found
    cases found

theorem scan_of_error {version : Version} {input rest : Bytes} {cause : Error}
    (nonempty : input ≠ []) (failure : (readFramed version).run input = (.error cause, rest)) :
    scan version input = { records := [], failure := some (cause, rest.length) } := by
  rw [scan, if_neg (fun empty => nonempty (List.isEmpty_iff.1 empty))]
  split
  next found =>
    rw [failure] at found
    cases found
  next found =>
    rw [failure] at found
    cases found
    rfl

theorem scan_frame {version : Version} {record : Record} {frame : Bytes}
    (framed : encodeFramed version record = .ok frame) (rest : Bytes) :
    scan version (frame ++ rest) =
      (scan version rest).cons (record.kept version) rest.length :=
  scan_of_ok ((reads_encodeFramed framed).2 rest)

theorem scan_piece {version : Version} {record : Record} {frame : Bytes}
    (framed : encodeFramed version record = .ok frame) {count : Nat} (some : 0 < count)
    (short : count < frame.length) :
    (scan version (frame.take count)).records = [] ∧
      (scan version (frame.take count)).failure.map (·.1) = .some (.corruption .truncated) := by
  have cut := (stable_readFramed version).truncated (reads_encodeFramed framed).2 short
  have nonempty : frame.take count ≠ [] := by
    intro none
    have length := congrArg List.length none
    rw [List.length_take, List.length_nil] at length
    omega
  cases found : (readFramed version).run (frame.take count) with
  | mk outcome rest =>
      rw [found] at cut
      cases cut
      rw [scan_of_error nonempty found]
      exact ⟨rfl, rfl⟩

/-! ### Where the log breaks off -/

/-- Where each of `frames` ends, if the first begins at `start` and each next one behind the one
before. -/
def frameEnds (start : Nat) : (frames : List Bytes) → List Nat
  | [] => []
  | frame :: frames => (start + frame.length) :: frameEnds (start + frame.length) frames

theorem firstEnd_le {start : Nat} {frame : Bytes} {frames : List Bytes} :
    ∀ position ∈ frameEnds start (frame :: frames), start + frame.length ≤ position := by
  induction frames generalizing start frame with
  | nil =>
      intro position member
      exact Nat.le_of_eq (List.mem_singleton.1 member).symm
  | cons next frames ih =>
      intro position member
      rcases List.mem_cons.1 member with rfl | member
      · exact Nat.le_refl _
      · exact Nat.le_trans (Nat.le_add_right _ _) (ih position member)

/-- The records whose frames end within the first `cut` bytes, each as the version keeps it, with
the bytes between its end and the cut. -/
def recordsBefore (version : Version) (records : List Record) (ends : List Nat) (cut : Nat) :
    List (Record × Nat) :=
  ((records.zip ends).filter fun written => written.2 ≤ cut).map fun written =>
    (written.1.kept version, cut - written.2)

theorem recordsBefore_cons (version : Version) (record : Record) (records : List Record)
    (position : Nat) (ends : List Nat) (cut : Nat) :
    recordsBefore version (record :: records) (position :: ends) cut =
      if position ≤ cut then
        (record.kept version, cut - position) :: recordsBefore version records ends cut
      else recordsBefore version records ends cut := by
  simp only [recordsBefore, List.zip_cons_cons, List.filter_cons, decide_eq_true_eq]
  split <;> rfl

theorem recordsBefore_of_lt {version : Version} {records : List Record} {ends : List Nat}
    {cut : Nat} (later : ∀ position ∈ ends, cut < position) :
    recordsBefore version records ends cut = [] := by
  rw [recordsBefore, List.map_eq_nil_iff, List.filter_eq_nil_iff]
  rintro ⟨record, position⟩ member
  have beyond := later position (List.of_mem_zip member).2
  rw [decide_eq_true_eq]
  exact Nat.not_le_of_lt beyond

theorem scan_first {version : Version} {record : Record} {frame : Bytes}
    (framed : encodeFramed version record = .ok frame) {start cut : Nat} {ends : List Nat}
    (begins : start ≤ cut) (short : cut - start < frame.length)
    (later : ∀ position ∈ ends, cut < position) :
    (scan version (frame.take (cut - start))).records = [] ∧
      (scan version (frame.take (cut - start))).failure.map (·.1) =
        if cut ∈ start :: ends then none else some (.corruption .truncated) := by
  by_cases reached : cut = start
  · rw [reached, Nat.sub_self, List.take_zero, scan_nil, if_pos List.mem_cons_self]
    exact ⟨rfl, rfl⟩
  · have outside : cut ∉ start :: ends := by
      intro member
      rcases List.mem_cons.1 member with same | member
      · exact reached same
      · exact Nat.lt_irrefl cut (later cut member)
    rw [if_neg outside]
    exact scan_piece framed (by omega) short

theorem scan_frames {version : Version} {records : List Record} {frames : List Bytes}
    (written : records.mapM (encodeFramed version) = .ok frames) (start cut : Nat)
    (begins : start ≤ cut) (inside : cut ≤ start + frames.flatten.length) :
    (scan version (frames.flatten.take (cut - start))).records =
        recordsBefore version records (frameEnds start frames) cut ∧
      (scan version (frames.flatten.take (cut - start))).failure.map (·.1) =
        if cut ∈ start :: frameEnds start frames then none
        else some (.corruption .truncated) := by
  induction records generalizing start frames with
  | nil =>
      have none : frames = [] := by
        cases written
        rfl
      subst none
      have reached : cut = start := by simpa using Nat.le_antisymm inside begins
      simp [reached, scan_nil, recordsBefore, frameEnds]
  | cons record records ih =>
      rw [List.mapM_cons] at written
      obtain ⟨frame, framed, written⟩ := bind_eq_ok_iff.1 written
      obtain ⟨others, rest, done⟩ := bind_eq_ok_iff.1 written
      cases done
      have positive : 0 < frame.length :=
        List.length_pos_iff.2 (reads_encodeFramed framed).1
      rw [List.flatten_cons, List.length_append] at inside
      rw [List.flatten_cons]
      by_cases whole : start + frame.length ≤ cut
      · -- The frame is there in full: it is found, and behind it the cut is that of the others.
        obtain ⟨found, ended⟩ := ih rest (start + frame.length) whole (by omega)
        have covered : frame.length ≤ cut - start := by omega
        have left : cut - start - frame.length = cut - (start + frame.length) := by omega
        have unread : (others.flatten.take (cut - (start + frame.length))).length =
            cut - (start + frame.length) := by
          rw [List.length_take]
          omega
        have away : cut ≠ start := by omega
        rw [List.take_append, List.take_of_length_le covered, left, scan_frame framed, unread,
          frameEnds, recordsBefore_cons, if_pos whole, ← found]
        have boundary : (cut ∈ (start + frame.length) ::
            frameEnds (start + frame.length) others) = (cut ∈ start :: _) :=
          propext (List.mem_cons.trans (or_iff_right away)).symm
        exact ⟨rfl, ended.trans (ite_congr boundary (fun _ => rfl) (fun _ => rfl))⟩
      · -- The cut is in this frame, or just in front of it.
        have short : cut - start < frame.length := by omega
        have later : ∀ position ∈ frameEnds start (frame :: others), cut < position :=
          fun position member => Nat.lt_of_lt_of_le (by omega) (firstEnd_le position member)
        rw [List.take_append_of_le_length (Nat.le_of_lt short), recordsBefore_of_lt later]
        exact scan_first framed begins short later

/-- A log that breaks off anywhere is scanned as follows. It gives exactly the records whose
frames lie wholly before the cut, in order, as the version keeps them, each with the bytes that
are left behind it. If the cut is where a frame ends, or before the first, the scan ends without
a failure; anywhere else it ends with the one failure that the log was cut off. -/
theorem scan_torn (version : Version) (records : List Record) (frames : List Bytes) (cut : Nat)
    (written : records.mapM (encodeFramed version) = .ok frames)
    (inside : cut ≤ frames.flatten.length) :
    (scan version (frames.flatten.take cut)).records =
        (((records.zip (frameEnds 0 frames)).filter fun written => written.2 ≤ cut).map
          fun written => (written.1.kept version, cut - written.2)) ∧
      (scan version (frames.flatten.take cut)).failure.map (·.1) =
        if cut ∈ 0 :: frameEnds 0 frames then none else some (.corruption .truncated) := by
  have scanned := scan_frames written 0 cut (Nat.zero_le cut) (by omega)
  rw [Nat.sub_zero] at scanned
  exact scanned

def briefLog : List Record :=
  [.data { timestamp := 77, entries := [] }, .memoryRecovery 5, .switchSegment,
    .partitionDestroy (-1) 7]

theorem scan_torn_briefLog :
    let frames : List Bytes := [[2, 0, 0, 0, 0], [9, 0, 0, 0, 0, 0, 0, 0, 5], [11],
      [10, 255, 255, 255, 255, 0, 0, 0, 7]]
    let scanned := scan .v1 (frames.flatten.take 20)
    briefLog.mapM (encodeFramed .v1) = .ok frames ∧ 20 ≤ frames.flatten.length ∧
      scanned.records = [(.data { timestamp := 0, entries := [] }, 15), (.memoryRecovery 5, 6),
        (.switchSegment, 5)] ∧
      scanned.failure.map (·.1) = some (.corruption .truncated) := by
  intro frames scanned
  have written : briefLog.mapM (encodeFramed .v1) = .ok frames := rfl
  have inside : 20 ≤ frames.flatten.length := by decide
  obtain ⟨found, ended⟩ := scan_torn .v1 briefLog frames 20 written inside
  exact ⟨written, inside, found, ended⟩

end Durability.Codec
