import Stencil.Proofs.Command.Stages
import Stencil.Proofs.Delimiters.Layers

/-!
The configuration of a command. A file and overrides are merged member by member, and only what
comes out of that is checked.
-/
namespace Stencil.Command

open Delimiters (IsDocument Member standard)
open Json (Enclosed HexDigits IsString Keyed Separated)
open Stage (Acts)

variable {α : Type} {fs : FileSystem} {base : Delimiters} {o : DelimiterOptions}

/-- The delimiters below the overrides: those of a file that is accepted, or the standard ones if
no file is named. -/
inductive Below (fs : FileSystem) : Option Path → Delimiters → Prop
  | standard : Below fs none .standard
  | file {p : Path} {document : Text} {d : Delimiters} : fs.text? p = some document →
    Delimiters.ofDocument document = .ok d → Below fs (some p) d

/-- A stage whose effect has a result comes to that result. -/
theorem Stage.Acts.exists_apply {stage : Stage (StateM FileSystem) α} {x : Effect α} {a : α}
    {w : World} (h : Acts stage x) (transcript : Transcript)
    (hx : x ⟨Transcript.printed transcript, fs⟩ = (some a, w)) :
    ∃ written, stage transcript fs = ((.ok a, written), w.files) := by
  have hstage := h transcript fs
  rw [hx] at hstage
  rcases hrun : stage transcript fs with ⟨⟨result, written⟩, left⟩
  rw [hrun] at hstage
  obtain ⟨hresult, hleft⟩ := Prod.mk.inj hstage
  cases toOption_eq_some_iff.mp hresult
  cases hleft
  exact ⟨written, rfl⟩

/-- What is left to do once the layer below the overrides is known. -/
def resolve (base : Delimiters) (o : Overrides) :
    Stage (StateM FileSystem) { d : Delimiters // d.Valid } := do
  let d ← Stage.ofExcept CompileError.message (base.resolve o)
  d.val.ambiguities.forM fun a => Stage.note (.ambiguity a)
  return d

theorem resolve_apply (base : Delimiters) (o : Overrides) (transcript : Transcript)
    (fs : FileSystem) :
    ∃ written, resolve base o transcript fs =
      (((base.resolve o).mapError fun e => ⟨e.message, []⟩, written), fs) := by
  unfold resolve
  rw [Stage.bind_apply]
  rcases base.resolve o with e | d
  · exact ⟨transcript, rfl⟩
  · exact (Acts.forM_note_bind d.val.ambiguities .ambiguity (.pure d)).exists_apply
      transcript rfl

/-- What is configured when some of the run has been written already. -/
def configured (o : DelimiterOptions) (transcript : Transcript) (fs : FileSystem) :
    Except Failure { d : Delimiters // d.Valid } :=
  ((configure o : Stage (StateM FileSystem) _) transcript fs).1.1

theorem configure_apply (h : Below fs o.config base) (transcript : Transcript) :
    ∃ written, (configure o : Stage (StateM FileSystem) _) transcript fs =
      (((base.resolve o.overrides).mapError fun e => ⟨e.message, []⟩, written), fs) := by
  obtain ⟨config, overrides⟩ := o
  cases h with
  | standard => exact resolve_apply .standard overrides transcript fs
  | @file p document _ htext hdocument =>
    obtain ⟨read, hread⟩ := (acts_readText p).exists_apply transcript
      (Effect.reads_eq_some_iff.mpr ⟨htext, rfl⟩)
    obtain ⟨written, hresolve⟩ :=
      resolve_apply base overrides (read.push (.noted (.configLoaded p))) fs
    refine ⟨written, Eq.trans ?_ hresolve⟩
    unfold configure resolve
    simp only [Stage.bind_apply, hread, Stage.during_apply, hdocument]
    rfl

/-- Nothing but the merged delimiters decides what comes out. -/
theorem configured_eq (h : Below fs o.config base) (transcript : Transcript) :
    configured o transcript fs = (base.resolve o.overrides).mapError fun e => ⟨e.message, []⟩ := by
  obtain ⟨written, hrun⟩ := configure_apply h transcript
  rw [configured, hrun]

theorem configured_of_valid (h : Below fs o.config base) (transcript : Transcript)
    (hvalid : (base.override o.overrides).Valid) :
    configured o transcript fs = .ok ⟨base.override o.overrides, hvalid⟩ := by
  rw [configured_eq h, Delimiters.resolve_of_valid hvalid]
  rfl

theorem configured_of_not_valid (h : Below fs o.config base) (transcript : Transcript)
    (hvalid : ¬ (base.override o.overrides).Valid) :
    configured o transcript fs =
      .error ⟨(CompileError.emptyDelimiter (base.override o.overrides).emptySide).message, []⟩ := by
  rw [configured_eq h, Delimiters.resolve_of_not_valid hvalid]
  rfl

theorem message_emptySide (d : Delimiters) :
    (CompileError.emptyDelimiter d.emptySide).message =
      if d.start = [] then ("invalid delimiter configuration: start delimiter is empty" : Text)
      else "invalid delimiter configuration: end delimiter is empty" := by
  rw [Delimiters.emptySide]
  split <;> rfl

/-- A document replaces the members that it has, in any order and however it is written; overrides
replace theirs after that. Only then are the delimiters checked, the start delimiter first. -/
theorem configure_merges_before_check :
    (∀ (c : Delimiters) (document : Text) (members : List Member), IsDocument document members →
      (members.Pairwise fun a b => a.key ≠ b.key) → (∀ m ∈ members, m.Of c) →
        Delimiters.ofDocument document = .ok (standard.replacing c (members.map Member.key))) ∧
    ∀ (o : DelimiterOptions) (base : Delimiters) (transcript : Transcript) (fs : FileSystem),
      Below fs o.config base →
      let start := o.overrides.start.getD base.start
      let stop := o.overrides.stop.getD base.stop
      ((∃ d, configured o transcript fs = .ok d) ↔ start ≠ [] ∧ stop ≠ []) ∧
        (∀ d, configured o transcript fs = .ok d →
          d.val.start = start ∧ d.val.stop = stop ∧
            ∀ a, a ∈ d.val.markers ↔
              match o.overrides.markers with
              | some list => a ∈ list
              | none => a ∈ base.markers) ∧
        ∀ f, configured o transcript fs = .error f →
          f = ⟨if start = [] then "invalid delimiter configuration: start delimiter is empty"
            else "invalid delimiter configuration: end delimiter is empty", []⟩ := by
  refine ⟨fun c document members ht hkeys hmembers =>
    Delimiters.ofDocument_of_members ht hkeys hmembers, ?_⟩
  intro o base transcript fs h start stop
  by_cases hvalid : (base.override o.overrides).Valid
  · have hok := configured_of_valid h transcript hvalid
    refine ⟨⟨fun _ => hvalid, fun _ => ⟨_, hok⟩⟩, ?_, ?_⟩
    · intro d hd
      cases hok.symm.trans hd
      exact ⟨rfl, rfl, fun a => Delimiters.mem_markers_override⟩
    · intro f hf
      cases hok.symm.trans hf
  · have herror := configured_of_not_valid h transcript hvalid
    refine ⟨⟨?_, fun hboth => (hvalid hboth).elim⟩, ?_, ?_⟩
    · rintro ⟨d, hd⟩
      cases herror.symm.trans hd
    · intro d hd
      cases herror.symm.trans hd
    · intro f hf
      cases herror.symm.trans hf
      rw [message_emptySide]
      rfl

/-- A file with an escape, a marker given twice and an empty start delimiter. With overrides for
the start delimiter and the markers it is accepted, and by itself it is refused. -/
theorem configure_merges_before_check_empty_start :
    let document : Text :=
      " \x7b\"eval_markers\" : [\"=\", \"\\u003d\"],\"start\":\"\"\x7d\n"
    let members : List Member := [.markers ['=', '='], .start []]
    let c : Delimiters := ⟨[], ['#'], .ofList ['=']⟩
    let base := standard.replacing c (members.map Member.key)
    let fs : FileSystem := ⟨.directory [(['d'], .file (Text.encodeUtf8 document))], []⟩
    let o : DelimiterOptions := ⟨some ⟨['d']⟩, { start := some ['['], markers := some [] }⟩
    IsDocument document members ∧ (members.Pairwise fun a b => a.key ≠ b.key) ∧
      (∀ m ∈ members, m.Of c) ∧ Below fs o.config base ∧
      (∃ d, configured o #[] fs = .ok d ∧ d.val.start = ['['] ∧ d.val.stop = ['%', '>'] ∧
        ∀ a, a ∉ d.val.markers) ∧
      ∀ d, configured { o with overrides := {} } #[] fs ≠ .ok d := by
  intro document members c base fs o
  have hplain (key : Text) (h : key.all fun c => c ≠ '"' ∧ c ≠ '\\' ∧ ¬ c.toNat < 0x20) :
      IsString ('"' :: (key ++ ['"'])) key :=
    .quoted (.self fun c hc => of_decide_eq_true (List.all_eq_true.mp h c hc))
  have hequals := hplain ['='] (by decide)
  have hescaped : IsString ['"', '\\', 'u', '0', '0', '3', 'd', '"'] ['='] :=
    .quoted (.unit (@HexDigits.four '0' '0' '3' 'd' 0 0 3 13 rfl rfl rfl rfl) (.inl (by decide))
      .nil)
  have hlist : Enclosed '[' ']' (fun t a => IsString t [a]) _ ['=', '='] :=
    .items (@Separated.cons _ _ [] _ [] _ _ _ rfl rfl hequals
      (@Separated.last _ _ [' '] _ [] _ rfl rfl hescaped))
  have hmarkers : Member.Written _ (.markers ['=', '=']) :=
    @Keyed.keyed _ _ _ _ [' '] [' '] _ _ (hplain "eval_markers".toList (by decide)) rfl rfl hlist
  have hstart : Member.Written _ (.start []) :=
    @Keyed.keyed _ _ _ _ [] [] _ _ (hplain "start".toList (by decide)) rfl rfl (hplain [] rfl)
  have hdocument : IsDocument document members :=
    @IsDocument.object [' '] _ ['\n'] _ rfl rfl (.items (@Separated.cons _ _ [] _ [] _ _ _ rfl rfl
      hmarkers (@Separated.last _ _ [] _ [] _ rfl rfl hstart)))
  have hkeys : members.Pairwise fun a b => a.key ≠ b.key := by decide
  have hmembers : ∀ m ∈ members, m.Of c := by
    intro m hm
    obtain rfl | rfl := List.mem_pair.mp hm
    · intro a
      simp [c, Markers.mem_ofList]
    · rfl
  obtain ⟨hread, hmerge⟩ := configure_merges_before_check
  have hbelow : Below fs (some ⟨['d']⟩) base :=
    .file (FileSystem.text?_eq_some_iff.mpr rfl) (hread c document members hdocument hkeys hmembers)
  obtain ⟨hok, hvalues, -⟩ := hmerge o base #[] fs hbelow
  obtain ⟨hfails, -⟩ := hmerge { o with overrides := {} } base #[] fs hbelow
  refine ⟨hdocument, hkeys, hmembers, hbelow, ?_, ?_⟩
  · obtain ⟨d, hd⟩ := hok.mpr (by decide)
    obtain ⟨hstart, hstop, hmarkers⟩ := hvalues d hd
    refine ⟨d, hd, hstart, hstop, ?_⟩
    intro a ha
    exact List.not_mem_nil ((hmarkers a).mp ha)
  · intro d hd
    exact (hfails.mp ⟨d, hd⟩).1 rfl

end Stencil.Command
