/-
Compressed data in front of more bits.  Each reader takes the bits that it needs from the front,
so that it succeeds alike when more of them stand behind, and leaves these to what comes next.
-/
import DocWeave.Deflate.Block
import DocWeave.Proofs.Outcome

namespace DocWeave.Deflate

/-! ### Bytes and bits -/

theorem length_bitsOfByte (b : UInt8) : (bitsOfByte b).length = 8 := by
  simp [bitsOfByte]

theorem bitsOfBytes_append (first second : List UInt8) :
    bitsOfBytes (first ++ second) = bitsOfBytes first ++ bitsOfBytes second :=
  List.flatMap_append

theorem bitsOfBytes_cons (b : UInt8) (bytes : List UInt8) :
    bitsOfBytes (b :: bytes) = bitsOfByte b ++ bitsOfBytes bytes := rfl

theorem length_bitsOfBytes (bytes : List UInt8) :
    (bitsOfBytes bytes).length = 8 * bytes.length := by
  induction bytes with
  | nil => rfl
  | cons b bytes ih =>
      rw [bitsOfBytes_cons, List.length_append, length_bitsOfByte, ih, List.length_cons]
      omega

/-! ### Reading in front of more bits -/

variable {α β : Type} {p q p' q' : List Bool → Prop} {extra : List Bool}

/-- Reading longer bits succeeds as reading shorter ones does, and leaves the bits behind them
over. -/
def Extends (extra : List Bool) (short : Except Fault (α × Subtype p))
    (long : Except Fault (α × Subtype q)) : Prop :=
  CarriesOver (fun r r' => ∃ h, r' = (r.1, ⟨r.2.1 ++ extra, h⟩)) short long

namespace Extends

theorem error (e : Fault) (long : Except Fault (α × Subtype q)) :
    Extends extra (.error e : Except Fault (α × Subtype p)) long :=
  CarriesOver.error e long

theorem ok (value : α) {rest : List Bool} (h : p rest) (h' : q (rest ++ extra)) :
    Extends extra (.ok (value, ⟨rest, h⟩) : Except Fault (α × Subtype p))
      (.ok (value, ⟨rest ++ extra, h'⟩) : Except Fault (α × Subtype q)) :=
  CarriesOver.ok ⟨h', rfl⟩

theorem bind {short : Except Fault (α × Subtype p)} {long : Except Fault (α × Subtype q)}
    {next : α × Subtype p → Except Fault (β × Subtype p')}
    {next' : α × Subtype q → Except Fault (β × Subtype q')} (h : Extends extra short long)
    (hnext : ∀ value rest hrest hrest', Extends extra (next (value, ⟨rest, hrest⟩))
      (next' (value, ⟨rest ++ extra, hrest'⟩))) :
    Extends extra (short >>= next) (long >>= next') := by
  refine CarriesOver.bind h ?_
  rintro ⟨value, rest, hrest⟩ _ ⟨hrest', rfl⟩
  exact hnext value rest hrest hrest'

theorem after (x : Except Fault β) {next : β → Except Fault (α × Subtype p)}
    {next' : β → Except Fault (α × Subtype q)}
    (hnext : ∀ value, Extends extra (next value) (next' value)) :
    Extends extra (x >>= next) (x >>= next') :=
  CarriesOver.after x hnext

theorem map {short : Except Fault (α × Subtype p)} {long : Except Fault (α × Subtype q)}
    {f : α × Subtype p → β × Subtype p'} {f' : α × Subtype q → β × Subtype q'}
    (h : Extends extra short long)
    (hf : ∀ value rest hrest hrest', ∃ h', f' (value, ⟨rest ++ extra, hrest'⟩) =
      ((f (value, ⟨rest, hrest⟩)).1, ⟨(f (value, ⟨rest, hrest⟩)).2.1 ++ extra, h'⟩)) :
    Extends extra (short.map f) (long.map f') := by
  refine CarriesOver.map h ?_
  rintro ⟨value, rest, hrest⟩ _ ⟨hrest', rfl⟩
  exact hf value rest hrest hrest'

end Extends

theorem number_extends (count : Nat) (bits : List Bool) :
    Extends extra (number count bits) (number count (bits ++ extra)) := by
  induction count generalizing bits with
  | zero => exact .ok _ _ _
  | succ count ih =>
      cases bits with
      | nil => exact .error _ _
      | cons bit bits => exact (ih bits).map fun _ _ _ _ => ⟨_, rfl⟩

namespace Code

theorem follow_extends (code : Code) (bits : List Bool) :
    Extends extra (code.follow bits) (code.follow (bits ++ extra)) := by
  induction code generalizing bits with
  | unused => exact .error _ _
  | symbol s => exact .ok _ _ _
  | branch zero one ihzero ihone =>
      cases bits with
      | nil => exact .error _ _
      | cons bit bits =>
          refine Extends.map ?_ fun _ _ _ _ => ⟨_, rfl⟩
          cases bit with
          | false => exact ihzero bits
          | true => exact ihone bits

theorem read_extends (code : Code) (bits : List Bool) :
    Extends extra (code.read bits) (code.read (bits ++ extra)) := by
  cases bits with
  | nil => exact .error _ _
  | cons bit bits =>
      exact (follow_extends _ bits).map fun _ _ _ _ => ⟨_, rfl⟩

end Code

theorem numberIn_extends (span : Option Span) (bits : List Bool) :
    Extends extra (numberIn span bits) (numberIn span (bits ++ extra)) := by
  cases span with
  | none => exact .error _ _
  | some span =>
      exact (number_extends span.bits bits).map fun _ _ _ _ => ⟨_, rfl⟩

theorem symbols_extends (literals distances : Code) {whole : List Bool} (out : Output)
    {bits : List Bool} (h : bits.length ≤ whole.length)
    (h' : (bits ++ extra).length ≤ (whole ++ extra).length) :
    Extends extra (symbols literals distances whole out bits h)
      (symbols literals distances (whole ++ extra) out (bits ++ extra) h') := by
  rw [symbols, symbols]
  refine (literals.read_extends bits).bind fun s rest hlt hlt' => ?_
  dsimp only
  split
  · exact symbols_extends literals distances _ _ _
  split
  · exact .ok _ _ _
  refine (numberIn_extends _ rest).bind fun length rest₁ h₁ h₁' => ?_
  refine (distances.read_extends rest₁).bind fun d rest₂ h₂ h₂' => ?_
  refine (numberIn_extends _ rest₂).bind fun distance rest₃ h₃ h₃' => ?_
  dsimp only
  split
  · exact .error _ _
  · exact symbols_extends literals distances _ _ _
termination_by bits.length
decreasing_by all_goals omega

theorem plainBytes_extends (count : Nat) (out : Output) (bits : List Bool) :
    Extends extra (plainBytes count out bits) (plainBytes count out (bits ++ extra)) := by
  induction count generalizing out bits with
  | zero => exact .ok _ _ _
  | succ count ih =>
      refine (number_extends 8 bits).bind fun b rest h h' => ?_
      exact (ih _ rest).bind fun out final hfinal hfinal' => .ok _ _ _

/-- What stands behind is a number of whole bytes. -/
theorem align_extends (h : 8 ∣ extra.length) (bits : List Bool) :
    ∃ hle, align (bits ++ extra) = ⟨(align bits).1 ++ extra, hle⟩ := by
  have hmod : (bits ++ extra).length % 8 = bits.length % 8 := by
    rw [List.length_append]
    omega
  have hdrop : (bits ++ extra).drop ((bits ++ extra).length % 8) = (align bits).1 ++ extra := by
    rw [hmod]
    exact List.drop_append_of_le_length (Nat.mod_le _ _)
  exact ⟨hdrop ▸ (align (bits ++ extra)).2, Subtype.ext hdrop⟩

theorem plainBlock_extends (h : 8 ∣ extra.length) (out : Output) (bits : List Bool) :
    Extends extra (plainBlock out bits) (plainBlock out (bits ++ extra)) := by
  obtain ⟨hle, halign⟩ := align_extends h bits
  unfold plainBlock
  rw [halign]
  refine (number_extends 16 _).bind fun count rest₁ h₁ h₁' => ?_
  refine (number_extends 16 rest₁).bind fun complement rest₂ h₂ h₂' => ?_
  dsimp only
  split
  · exact .error _ _
  · exact (plainBytes_extends _ out rest₂).bind fun out final hfinal hfinal' => .ok _ _ _

theorem shortLengths_extends (count : Nat) (bits : List Bool) :
    Extends extra (shortLengths count bits) (shortLengths count (bits ++ extra)) := by
  induction count generalizing bits with
  | zero => exact .ok _ _ _
  | succ count ih =>
      refine (number_extends 3 bits).bind fun length rest h h' => ?_
      exact (ih rest).bind fun lengths final hfinal hfinal' => .ok _ _ _

theorem lengths_extends (code : Code) (total : Nat) (found : Array Nat) (bits : List Bool) :
    Extends extra (lengths code total found bits) (lengths code total found (bits ++ extra)) := by
  rw [lengths, lengths]
  split
  · split
    · exact .ok _ _ _
    · exact .error _ _
  refine (code.read_extends bits).bind fun s rest h h' => ?_
  have repeated (count : Nat) (f : Nat → List Nat) :
      Extends extra ((number count rest).map fun r => (f r.1, r.2))
        ((number count (rest ++ extra)).map fun r => (f r.1, r.2)) :=
    (number_extends count rest).map fun _ _ _ _ => ⟨_, rfl⟩
  refine Extends.bind ?_ fun added rest₁ h₁ h₁' => ?_
  · dsimp only
    split
    · exact .ok _ _ _
    split
    · cases found.back? with
      | none => exact .error _ _
      | some last => exact repeated 2 fun n => List.replicate (3 + n) last
    split
    · exact repeated 3 fun n => List.replicate (3 + n) 0
    · exact repeated 7 fun n => List.replicate (11 + n) 0
  · exact (lengths_extends code total _ rest₁).bind fun all final hfinal hfinal' => .ok _ _ _
termination_by bits.length
decreasing_by omega

theorem ownCodes_extends (bits : List Bool) :
    Extends extra (ownCodes bits) (ownCodes (bits ++ extra)) := by
  refine (number_extends 5 bits).bind fun literals rest h h' => ?_
  refine (number_extends 5 rest).bind fun distances rest₁ h₁ h₁' => ?_
  refine (number_extends 4 rest₁).bind fun short rest₂ h₂ h₂' => ?_
  dsimp only
  split
  · exact .error _ _
  refine (shortLengths_extends _ rest₂).bind fun given rest₃ h₃ h₃' => ?_
  dsimp only
  split
  · exact .error _ _
  refine (lengths_extends _ _ _ rest₃).bind fun all final hfinal hfinal' => ?_
  exact .after _ fun literalCode => .after _ fun distanceCode => .ok _ _ _

theorem block_extends (h : 8 ∣ extra.length) (kind : Nat) (out : Output) (bits : List Bool) :
    Extends extra (block kind out bits) (block kind out (bits ++ extra)) := by
  unfold block
  split
  · exact plainBlock_extends h out bits
  · exact symbols_extends _ _ out _ _
  · exact (ownCodes_extends bits).bind fun codes rest h h' => symbols_extends _ _ out _ _
  · exact .error _ _

/-- Blocks end where their final one ends, whatever stands behind. -/
theorem blocks_append (h : 8 ∣ extra.length) {out final : Output} {bits rest : List Bool}
    (hblocks : blocks out bits = .ok (final, rest)) :
    blocks out (bits ++ extra) = .ok (final, rest ++ extra) := by
  match bits with
  | [] =>
      rw [blocks] at hblocks
      cases hblocks
  | last :: bits =>
      rw [blocks] at hblocks
      obtain ⟨⟨kind, rest₁⟩, hkind, hblocks⟩ := exists_of_bind_eq_ok hblocks
      obtain ⟨⟨out₁, rest₂⟩, hblock, hblocks⟩ := exists_of_bind_eq_ok hblocks
      obtain ⟨_, hkind, h₁, rfl⟩ := @number_extends extra 2 bits _ hkind
      obtain ⟨_, hblock, h₂, rfl⟩ := block_extends h kind out rest₁.1 _ hblock
      rw [List.cons_append, blocks]
      simp only [hkind, bind, Except.bind, hblock]
      cases last with
      | true =>
          cases hblocks
          rfl
      | false =>
          have hshorter : rest₂.1.length ≤ bits.length := Nat.le_trans rest₂.2 rest₁.2
          exact blocks_append h hblocks
termination_by bits.length
decreasing_by exact Nat.lt_succ_of_le hshorter

/-- Data is found in the same bytes, and more bytes behind them are handed back. -/
theorem inflate_append {bytes content rest : List UInt8} (h : inflate bytes = .ok (content, rest))
    (more : List UInt8) : inflate (bytes ++ more) = .ok (content, rest ++ more) := by
  obtain ⟨⟨out, left⟩, hblocks, h⟩ := exists_of_bind_eq_ok h
  cases h
  have hwhole : 8 ∣ (bitsOfBytes more).length := ⟨more.length, length_bitsOfBytes more⟩
  have hlength : (bytes ++ more).length - (left ++ bitsOfBytes more).length / 8 =
      bytes.length - left.length / 8 := by
    rw [List.length_append, List.length_append, length_bitsOfBytes]
    omega
  rw [inflate, bitsOfBytes_append, blocks_append hwhole hblocks]
  simp only [bind, Except.bind, hlength]
  rw [List.drop_append_of_le_length (Nat.sub_le _ _)]
  rfl

end DocWeave.Deflate
