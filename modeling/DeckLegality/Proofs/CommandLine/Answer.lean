import DeckLegality.CommandLine.Answer
import DeckLegality.Proofs.Pairing.Submission
import DeckLegality.Proofs.Snapshot.Files

/-!
# What the command says, and what it is worth

The command reads two files, judges the deck and looks for a pairing if it is asked to.  What it prints and how it exits
is said here without the command's own steps: by the violations of the deck, by the cards of main deck and sideboard,
and by whether sets of their own can be found for them.

* `Answer.Reports`: what has to be printed about a deck, and the status to exit with.
* `Verifier.listsPairing_linesOfPairing`: the lines of a pairing are complete, and ascend.
* `Request.reports_judge`: the answer for files that could be read.
* `Invocation.answer_judge`: the answer for any files.
-/

namespace DeckLegality

/-! ## What there is to say about a deck -/

namespace Verifier

/-- The lines give each card of main deck and sideboard, in ascending order, a legal set of its own. -/
def ListsPairing (v : Verifier) (s : Submission) (legal : SetCodes) (lines : List String) : Prop :=
  ∃ (f : CardName → SetCode) (names : List CardName), v.PairsUniquely s (some legal) f ∧
    names.Pairwise (· < ·) ∧ (∀ n, n ∈ names ↔ s.Lists n) ∧ lines = names.map fun n => n.text ++ ": " ++ (f n).text

/-- The violations of a submission when the given sets are legal. -/
def submissionViolations (v : Verifier) (s : Submission) (legal : SetCodes) : List Violation :=
  (v.verifySubmission s (some legal)).violations

end Verifier

/-- The answer says that the deck is valid, or what is wrong with it.  If it is asked to, it goes on with a pairing or
says that there is none.  The status is 0 if nothing is wrong and a pairing that is asked for exists, and 1
otherwise. -/
structure Answer.Reports (a : Answer) (v : Verifier) (s : Submission) (legal : SetCodes) (unique : Bool) : Prop where
  printed : ∃ verdict pairs, a.stdout = String.join ((verdict ++ pairs).map (· ++ "\n")) ∧
    (verdict = if v.submissionViolations s legal = [] then ["Valid"]
      else (v.submissionViolations s legal).map (·.message)) ∧
    (unique = false → pairs = []) ∧
    (unique = true → (∃ f, v.PairsUniquely s (some legal) f) → v.ListsPairing s legal pairs) ∧
    (unique = true → (¬∃ f, v.PairsUniquely s (some legal) f) → pairs = ["No one-card-per-set assignment exists"])
  status : a.exit = 0 ∨ a.exit = 1
  success : a.exit = 0 ↔
    v.submissionViolations s legal = [] ∧ (unique = true → ∃ f, v.PairsUniquely s (some legal) f)
  noError : a.error = none

/-! ## The verdict -/

theorem Answer.linesOfVerdict_ofViolations (l : List Violation) :
    linesOfVerdict (.ofViolations l) = if l = [] then ["Valid"] else l.map (·.message) := by
  cases l with
  | nil => rfl
  | cons x l => rfl

namespace Verifier

variable {v : Verifier} {s : Submission} {legal : SetCodes}

theorem verifySubmission_eq (v : Verifier) (s : Submission) (legal : SetCodes) :
    v.verifySubmission s (some legal) = .ofViolations (v.submissionViolations s legal) := by
  rw [submissionViolations, verifySubmission, verify, Verdict.violations_ofViolations]

theorem isValid_verifySubmission_iff :
    (v.verifySubmission s (some legal)).isValid = true ↔ v.submissionViolations s legal = [] := by
  rw [verifySubmission_eq, Verdict.isValid_ofViolations, List.isEmpty_iff]

/-! ## The pairing -/

theorem isSome_pairing?_iff :
    (v.pairing? s (some legal)).isSome = true ↔ ∃ f, v.PairsUniquely s (some legal) f := by
  rw [Option.isSome_iff_exists]
  constructor
  · rintro ⟨p, hp⟩
    obtain ⟨f, hf, -⟩ := exists_pairsUniquely hp
    exact ⟨f, hf⟩
  · rintro ⟨f, hf⟩
    exact exists_pairing hf

/-- The lines of a pairing leave no card out and add none. -/
theorem listsPairing_linesOfPairing {p : Pairing} (hp : v.pairing? s (some legal) = some p) :
    v.ListsPairing s legal (Answer.linesOfPairing (some p)) := by
  obtain ⟨f, hf, hget⟩ := exists_pairsUniquely hp
  refine ⟨f, p.keys, hf, List.pairwise_map.mpr p.ascending, fun n => ?_, ?_⟩
  · rw [SortedMap.mem_keys]
    constructor
    · rintro ⟨code, hcode⟩
      exact ((hget n code).mp hcode).1
    · intro hn
      exact ⟨f n, (hget n _).mpr ⟨hn, rfl⟩⟩
  · rw [SortedMap.keys, List.map_map]
    refine List.map_congr_left fun e he => ?_
    obtain ⟨-, hcode⟩ := (hget e.1 e.2).mp (SortedMap.get?_eq_some_iff.mpr he)
    show e.1.text ++ ": " ++ e.2.text = e.1.text ++ ": " ++ (f e.1).text
    rw [hcode]

end Verifier

/-! ## The sets that are legal -/

namespace Request

/-- The sets that are legal for a request. -/
def legalIn (r : Request) (s : Snapshot) : SetCodes := r.legal.getD s.allSets

/-- A request that lists sets means these, and one that lists none means all that exist. -/
theorem mem_legalIn {r : Request} {s : Snapshot} {code : SetCode} :
    code ∈ r.legalIn s ↔ if r.sets = [] then code ∈ s.allSets else code.text ∈ r.sets := by
  by_cases h : r.sets = []
  · rw [if_pos h, legalIn, legal, if_pos (List.isEmpty_iff.mpr h), Option.getD_none]
  · rw [if_neg h, legalIn, legal, if_neg (mt List.isEmpty_iff.mp h), Option.getD_some, SortedSet.mem_ofList,
      List.mem_map]
    constructor
    · rintro ⟨text, htext, rfl⟩
      exact htext
    · intro hcode
      exact ⟨code.text, hcode, rfl⟩

/-- To choose no sets is to choose all that exist. -/
theorem verifySubmission_legal (r : Request) (snapshot : Snapshot) (s : Submission) :
    (snapshot.verifier r.rules).verifySubmission s r.legal =
      (snapshot.verifier r.rules).verifySubmission s (some (r.legalIn snapshot)) := by
  rw [legalIn]
  cases r.legal <;> rfl

theorem pairing?_legal (r : Request) (snapshot : Snapshot) (s : Submission) :
    (snapshot.verifier r.rules).pairing? s r.legal =
      (snapshot.verifier r.rules).pairing? s (some (r.legalIn snapshot)) := by
  rw [legalIn]
  cases r.legal <;> rfl

/-! ## The answer -/

/-- An exit status says yes or no. -/
theorem exit_eq_zero_iff {yes : Bool} : (if yes then 0 else 1 : Nat) = 0 ↔ yes = true := by
  cases yes <;> decide

theorem exit_eq_zero_or_one (yes : Bool) : (if yes then 0 else 1 : Nat) = 0 ∨ (if yes then 0 else 1 : Nat) = 1 := by
  cases yes <;> decide

/-- The answer if no pairing is asked for. -/
theorem judge_verdict {r : Request} (h : r.unique = false) (snapshot : Snapshot) (s : Submission) :
    r.judge snapshot s =
      ⟨if ((snapshot.verifier r.rules).verifySubmission s (some (r.legalIn snapshot))).isValid then 0 else 1,
        Answer.linesOfVerdict ((snapshot.verifier r.rules).verifySubmission s (some (r.legalIn snapshot))), none⟩ := by
  rw [judge, h, verifySubmission_legal]
  rfl

/-- The answer if a pairing is asked for. -/
theorem judge_pairing {r : Request} (h : r.unique = true) (snapshot : Snapshot) (s : Submission) :
    r.judge snapshot s =
      ⟨if ((snapshot.verifier r.rules).verifySubmission s (some (r.legalIn snapshot))).isValid &&
          ((snapshot.verifier r.rules).pairing? s (some (r.legalIn snapshot))).isSome then 0 else 1,
        Answer.linesOfVerdict ((snapshot.verifier r.rules).verifySubmission s (some (r.legalIn snapshot))) ++
          Answer.linesOfPairing ((snapshot.verifier r.rules).pairing? s (some (r.legalIn snapshot))), none⟩ := by
  rw [judge, h, verifySubmission_legal, pairing?_legal]
  rfl

/-- The answer for files that could be read. -/
theorem reports_judge (r : Request) (snapshot : Snapshot) (s : Submission) :
    (r.judge snapshot s).Reports (snapshot.verifier r.rules) s (r.legalIn snapshot) r.unique := by
  have hverdict := (congrArg Answer.linesOfVerdict
    ((snapshot.verifier r.rules).verifySubmission_eq s (r.legalIn snapshot))).trans
      (Answer.linesOfVerdict_ofViolations _)
  cases hunique : r.unique with
  | false =>
    rw [judge_verdict hunique]
    refine ⟨⟨_, [], ?_, hverdict, fun _ => rfl, nofun, nofun⟩, exit_eq_zero_or_one _, ?_, rfl⟩
    · rw [List.append_nil]
      rfl
    · rw [exit_eq_zero_iff, Verifier.isValid_verifySubmission_iff]
      exact ⟨fun h => ⟨h, nofun⟩, And.left⟩
  | true =>
    rw [judge_pairing hunique]
    refine ⟨⟨_, _, rfl, hverdict, nofun, fun _ hexists => ?_, fun _ hnone => ?_⟩, exit_eq_zero_or_one _, ?_, rfl⟩
    · obtain ⟨p, hp⟩ := Option.isSome_iff_exists.mp (Verifier.isSome_pairing?_iff.mpr hexists)
      rw [hp]
      exact Verifier.listsPairing_linesOfPairing hp
    · rw [Option.not_isSome_iff_eq_none.mp (mt Verifier.isSome_pairing?_iff.mp hnone)]
      rfl
    · rw [exit_eq_zero_iff, Bool.and_eq_true, Verifier.isValid_verifySubmission_iff, Verifier.isSome_pairing?_iff]
      exact and_congr_right fun _ => ⟨fun h _ => h, fun h => h rfl⟩

end Request

/-- A file of text is read as the text. -/
theorem Submission.ofFile_toUTF8 (path : String) {text : String} {s : Submission} (h : ofText text = .ok s) :
    ofFile path (.ok text.toUTF8) = .ok s := by
  have htext : FileContents.text (.ok text.toUTF8) = .ok text := by
    rw [FileContents.text]
    dsimp only [bind, Except.bind]
    rw [String.toUTF8_eq_toByteArray, Text.fromUTF8?_toByteArray]
  rw [ofFile, htext]
  show (ofText text).mapError _ = _
  rw [h]
  rfl

namespace Invocation

/-- **What the command answers, for any files.**  The status is 2, and nothing is printed, exactly if the snapshot or
the decklist cannot be read; the error is the snapshot's, if it is at fault, and the decklist's otherwise.  If both can
be read, the answer reports on the deck.  The sets that are legal are exactly those that the request lists, or all sets
that exist if it lists none. -/
theorem answer_judge {args : List String} {r : Request} (h : ofArgs? args = some (.judge r))
    (contents : String → FileContents) :
    (((answer args contents).exit = 2 ∧ (answer args contents).stdout = "") ↔
        (∃ e, Snapshot.ofFile r.snapshot (contents r.snapshot) = .error e) ∨
          ∃ e, Submission.ofFile r.decklist (contents r.decklist) = .error e) ∧
      (∀ e, Snapshot.ofFile r.snapshot (contents r.snapshot) = .error e →
        (answer args contents).error = some e.message) ∧
      (∀ snapshot e, Snapshot.ofFile r.snapshot (contents r.snapshot) = .ok snapshot →
        Submission.ofFile r.decklist (contents r.decklist) = .error e →
          (answer args contents).error = some e.message) ∧
      ∀ snapshot s, Snapshot.ofFile r.snapshot (contents r.snapshot) = .ok snapshot →
        Submission.ofFile r.decklist (contents r.decklist) = .ok s →
          ∃ legal : SetCodes,
            (∀ code, code ∈ legal ↔ if r.sets = [] then code ∈ snapshot.allSets else code.text ∈ r.sets) ∧
            (answer args contents).Reports (snapshot.verifier r.rules) s legal r.unique := by
  have hanswer : answer args contents = r.answer contents := by rw [answer, h]
  rw [hanswer, Request.answer]
  cases hsnapshot : Snapshot.ofFile r.snapshot (contents r.snapshot) with
  | error e =>
    refine ⟨⟨fun _ => Or.inl ⟨e, rfl⟩, fun _ => ⟨rfl, rfl⟩⟩, fun e' he => ?_, nofun, nofun⟩
    exact congrArg (fun e => some e.message) (Except.error.inj he)
  | ok snapshot =>
    cases hdecklist : Submission.ofFile r.decklist (contents r.decklist) with
    | error e =>
      refine ⟨⟨fun _ => Or.inr ⟨e, rfl⟩, fun _ => ⟨rfl, rfl⟩⟩, nofun, fun _ e' _ he => ?_, nofun⟩
      exact congrArg (fun e => some e.message) (Except.error.inj he)
    | ok s =>
      have hreports := r.reports_judge snapshot s
      refine ⟨⟨fun hexit => ?_, ?_⟩, nofun, nofun, fun snapshot' s' hsnapshot' hs' => ?_⟩
      · -- A report never ends with status 2.
        rcases hreports.status with hzero | hone
        · exact absurd (hzero.symm.trans hexit.1) (by decide)
        · exact absurd (hone.symm.trans hexit.1) (by decide)
      · rintro (⟨e, he⟩ | ⟨e, he⟩) <;> exact nomatch he
      · obtain rfl := Except.ok.inj hsnapshot'
        obtain rfl := Except.ok.inj hs'
        exact ⟨r.legalIn snapshot, fun code => Request.mem_legalIn, hreports⟩

/-- A request for a pairing, with options before and between the other arguments. -/
def pairingRequest : Request where
  decklist := "deck.txt"
  sets := ["M19", "ALA"]
  snapshot := "sets.bin"
  rules := { minDeckSize := 6 }
  unique := true

def pairingArgs : List String :=
  ["--printings", "sets.bin", "deck.txt", "M19", "--min-deck-size=6", "ALA", "--unique"]

/-- A snapshot in which one of two cards was printed in one set only. -/
def narrowSnapshot : Snapshot := ⟨Verifier.narrow.printings, Verifier.narrow.allSets⟩

/-- The two files, with the two cards on the decklist. -/
def pairingFiles (path : String) : FileContents :=
  if path = "sets.bin" then .ok (narrowSnapshot.toFile path) else .ok "3 Dispel\n2 Shock\nSide:\n1 Dispel".toUTF8

theorem answer_judge_playset :
    ofArgs? pairingArgs = some (.judge pairingRequest) ∧
      (answer pairingArgs fun _ => .error .notFound).exit = 2 ∧
      (answer pairingArgs fun _ => .error .notFound).stdout = "" ∧
      (answer pairingArgs fun _ => .error .notFound).error =
        some "could not access snapshot sets.bin: No such file or directory (os error 2)" ∧
      ∃ legal : SetCodes, (∀ code, code ∈ legal ↔ code.text ∈ ["M19", "ALA"]) ∧
        (answer pairingArgs pairingFiles).Reports (narrowSnapshot.verifier { minDeckSize := 6 }) Verifier.playset legal
          true := by
  have hargs : ofArgs? pairingArgs = some (.judge pairingRequest) := by rfl
  have hfit : narrowSnapshot.LengthsFit := by decide +kernel
  have hsnapshot : Snapshot.ofFile "sets.bin" (pairingFiles "sets.bin") = .ok narrowSnapshot :=
    Snapshot.decode_encode narrowSnapshot.isEnumeration_listing fun _ => hfit
  have hdecklist : Submission.ofFile "deck.txt" (pairingFiles "deck.txt") = .ok Verifier.playset :=
    Submission.ofFile_toUTF8 _ (by decide +kernel)
  obtain ⟨hfailure, hmessage, -, -⟩ := answer_judge hargs fun _ => .error .notFound
  obtain ⟨-, -, -, hreports⟩ := answer_judge hargs pairingFiles
  obtain ⟨hexit, hstdout⟩ := hfailure.mpr (Or.inl ⟨_, rfl⟩)
  obtain ⟨legal, hlegal, hreport⟩ := hreports _ _ hsnapshot hdecklist
  exact ⟨hargs, hexit, hstdout, (hmessage _ rfl).trans (by decide +kernel), legal, hlegal, hreport⟩

end Invocation

end DeckLegality
