import XivelyClient.HeapAllocator.Session

/-! A build with assertions. The one that compares the rest of a split block with the next free block fails whenever there
is one, for two free blocks never touch; and the fit test is only right where its sums stay in the range of an address. -/
namespace XivelyClient.HeapAllocator.Session
open Runs

/-- A step of a build with assertions: the run ends where one fails. -/
def performAsserted (s : Session) (event : Event) : Option Session :=
  (s.outcome event).bind fun out => if out.asserted then some (s.after out event) else none

/-- The first free block that the fit test takes. -/
def chosen (s : Session) (size : Int) : Option Int := s.heap.freeBlocks.find? (matchingSizePred s.heap.memory size)

/-- The assertions hold, and a pointer is only returned when the chosen block had the room. -/
def Asserts (s : Session) (event : Event) : Prop :=
  ∃ out, s.outcome event = some out ∧ out.asserted = true ∧
    ∀ size, event = .alloc size → out.result ≠ 0 →
      ∃ e, s.chosen size.toNat = some e ∧ roundUp (e + extraSpaceSize + size.toNat) + extraSpaceSize ≤ stop s.heap.memory e

/-- Something is asked for, the first block that fits is the last free block, and the sums of the test do not wrap. An allocation
whose new header would be the old one is refused. -/
def LastFits (s : Session) : Event → Prop
  | .alloc size => size ≠ 0 ∧ ∀ e, s.chosen size.toNat = some e →
      newFreeAligned size.toNat e = e ∨ (s.heap.freeBlocks.getLast? = some e ∧ e + size.toNat + 67 < 2 ^ 63)
  | .free _ => True

variable {s : Session} {buffer : Buffer}

theorem alloc_none {size : Int} (missing : s.chosen size = none) : HeapAllocator.alloc s.heap size = ⟨s.heap,0,argAsserted s.heap size⟩ := by
  rw [chosen] at missing
  rw [HeapAllocator.alloc]
  simp only [missing]

theorem alloc_refused {size e : Int} (found : s.chosen size = some e) (same : newFreeAligned size e = e) :
    alloc s.heap size = ⟨s.heap,0,argAsserted s.heap size⟩ := by
  rw [chosen] at found
  rw [alloc]
  simp only [found,listRelocate,if_pos same]

theorem argAsserted_eq {heap : StackAllocator} {size : Int} (slot : heap.freeBlocks ≠ []) : argAsserted heap size = (size != 0) := by
  rw [argAsserted,List.isEmpty_eq_false_iff.mpr slot,Bool.or_false]

theorem argAsserted_of_alloc {size : Int} (asserted : (alloc s.heap size).asserted = true) : argAsserted s.heap size = true := by
  revert asserted
  rw [alloc]
  split
  · exact id
  · dsimp only
    split
    · exact id
    · exact fun asserted => (Bool.and_eq_true_iff.mp (Bool.and_eq_true_iff.mp asserted).1).1

theorem alloc_returns {size e : Int} (found : s.chosen size = some e) (apart : newFreeAligned size e ≠ e) :
    (alloc s.heap size).result = externalFromInternal extraSpaceSize xiAlign e := by
  rw [chosen] at found
  have member := List.mem_of_find?_eq_some found
  rw [alloc]
  simp only [found,listRelocate,if_neg apart,if_pos member]

theorem isEmpty_iff_last {front back : List Int} {e : Int} (nodup : (front ++ e :: back).Nodup) :
    back.isEmpty = true ↔ (front ++ e :: back).getLast? = some e := by
  induction back using List.reverseRecOn with
  | nil => simp
  | append_singleton back last _ =>
    have differs : e ≠ last := by
      rintro rfl
      have own := (List.nodup_append.mp nodup).2.1
      exact (List.nodup_cons.mp own).1 (by simp)
    rw [← List.cons_append,← List.append_assoc,List.getLast?_concat]
    simpa using differs.symm

theorem Sound.asserts_iff (sound : s.Sound buffer) (event : Event) (may : s.Frees event) : s.Asserts event ↔ s.LastFits event := by
  cases event with
  | free ptr =>
    obtain ⟨out,freed,asserted,_⟩ := sound.free may
    exact iff_of_true ⟨out,freed,asserted,nofun⟩ trivial
  | alloc size =>
    obtain ⟨⟨blocks,good⟩,_⟩ := sound
    have notNull := buffer.notNull
    have addressable := buffer.addressable
    have positive : (0 : Int) ≤ size.toNat := Int.natCast_nonneg _
    have called : argAsserted s.heap size.toNat = ((size.toNat : Int) != 0) := argAsserted_eq good.slot
    by_cases zero : size = 0
    · subst zero
      refine iff_of_false (fun asserts => ?_) fun lastFits => lastFits.1 rfl
      obtain ⟨out,given,asserted,_⟩ := asserts
      obtain rfl := Option.some.inj given
      rw [argAsserted_of_alloc asserted] at called
      cases called
    have asked : argAsserted s.heap size.toNat = true := by
      rw [called]
      simpa using fun none' : size.toNat = 0 => zero (UInt64.toNat_inj.mp none')
    cases found : s.chosen size.toNat with
    | none =>
      refine iff_of_true ⟨_,rfl,?_,fun size' same returned => ?_⟩ ⟨zero,fun e chosen => ?_⟩
      · rw [alloc_none found]
        exact asked
      · cases same
        exact absurd (congrArg Outcome.result (alloc_none found)) returned
      · rw [found] at chosen
        cases chosen
    | some e =>
      have found' := found
      rw [chosen] at found'
      have member := List.mem_of_find?_eq_some found'
      rw [good.shows.freeBlocks] at member
      obtain ⟨front,back,rfl⟩ := frees_split member
      have inside := frees_subset member
      obtain ⟨low,header,high⟩ := good.shows.laid.bounds inside
      have within := good.shows.laid.tiles.within inside
      have placed := good.shows.laid.placed e inside
      have nodup := good.shows.nodup_frees
      have listed := good.shows.freeBlocks
      rw [frees_append,frees_free] at nodup listed
      have returns : externalFromInternal extraSpaceSize xiAlign e = e + 32 := external_eq placed.aligned (by omega) (by omega)
      obtain ⟨_,least,near⟩ := roundUp_spec (e + 32 + size.toNat)
      by_cases same : newFreeAligned size.toNat e = e
      · refine iff_of_true ⟨_,rfl,by rw [alloc_refused found same]; exact asked,fun _ _ returned => ?_⟩ ⟨zero,fun e' chosen => .inl ?_⟩
        · exact absurd (congrArg Outcome.result (alloc_refused found same)) returned
        · rw [found] at chosen
          obtain rfl := Option.some.inj chosen
          exact same
      constructor
      · rintro ⟨out,given,asserted,roomy⟩
        refine ⟨zero,fun e' chosen => ?_⟩
        obtain rfl := Option.some.inj given
        obtain rfl : e = e' := Option.some.inj (found.symm.trans chosen)
        obtain ⟨e',chosen',room⟩ := roomy size rfl (by rw [alloc_returns found same,returns]; omega)
        obtain rfl : e = e' := Option.some.inj (found.symm.trans chosen')
        rw [extraSpaceSize] at room
        have sums : Sums size.toNat e := ⟨positive,by omega⟩
        have fits := (matchingSizePred_iff placed (by omega) (by omega) sums).mp (List.find?_some found')
        rw [good.alloc (Session.addressable buffer) positive found' fits] at asserted
        rw [listed]
        exact .inr ⟨(isEmpty_iff_last nodup).mp (Bool.and_eq_true_iff.mp asserted).2,sums.2⟩
      · intro lastFits
        obtain ⟨last,small⟩ := (lastFits.2 e found).resolve_left same
        have sums : Sums size.toNat e := ⟨positive,small⟩
        have fits := (matchingSizePred_iff placed (by omega) (by omega) sums).mp (List.find?_some found')
        have allocated := good.alloc (Session.addressable buffer) positive found' fits
        rw [listed] at last
        refine ⟨_,rfl,?_,fun size' same' _ => ?_⟩
        · rw [allocated]
          exact Bool.and_eq_true_iff.mpr ⟨called ▸ asked,(isEmpty_iff_last nodup).mpr last⟩
        · cases same'
          exact ⟨e,found,fits.le⟩

theorem Sound.performAsserted {s' : Session} (sound : s.Sound buffer) (event : Event) (may : s.Frees event) (asserts : s.Asserts event)
    (performed : s.performAsserted event = some s') : s'.Sound buffer := by
  cases event with
  | free ptr =>
    obtain ⟨out,freed,asserted,sound'⟩ := sound.free may
    rw [Session.performAsserted,outcome,freed,Option.bind_some,if_pos asserted] at performed
    obtain rfl := Option.some.inj performed
    exact sound'
  | alloc size =>
    have lastFits := (sound.asserts_iff (.alloc size) may).mp asserts
    obtain ⟨out,given,asserted,_⟩ := asserts
    obtain rfl := Option.some.inj given
    rw [Session.performAsserted,outcome,Option.bind_some,if_pos asserted] at performed
    obtain rfl := Option.some.inj performed
    cases found : s.chosen size.toNat with
    | none =>
      rw [alloc_none found]
      exact sound
    | some e =>
      by_cases same : newFreeAligned size.toNat e = e
      · rw [alloc_refused found same]
        exact sound
      · refine sound.alloc size fun e' found' => ?_
        obtain rfl : e = e' := Option.some.inj (found.symm.trans found')
        obtain ⟨⟨blocks,good⟩,_⟩ := sound
        have member := List.mem_of_find?_eq_some found'
        rw [good.shows.freeBlocks] at member
        have inside := frees_subset member
        have placed := good.shows.laid.placed e inside
        obtain ⟨low,_,high⟩ := good.shows.laid.tiles.within inside
        have notNull := buffer.notNull
        have addressable := buffer.addressable
        have sums : Sums size.toNat e := ⟨Int.natCast_nonneg _,((lastFits.2 e found).resolve_left same).2⟩
        exact (matchingSizePred_iff placed (by omega) (by omega) sums).mp (List.find?_some found')

/-- In the runs of a program the assertions hold throughout exactly if every allocation takes the last free block. -/
theorem each_asserts_iff (memory : Int → Entry) (buffer : Buffer) (events : List Event)
    (may : Each performAsserted Frees (begin memory buffer) events) :
    Each performAsserted Asserts (begin memory buffer) events ↔ Each performAsserted LastFits (begin memory buffer) events :=
  each_iff_of_each (fun _ event sound may => sound.asserts_iff event may)
    (fun _ event _ sound may asserts performed => sound.performAsserted event may asserts performed) (begin_sound memory buffer) may

theorem each_asserts_iff_once :
    Each performAsserted Asserts (begin (fun _ => ⟨0,0⟩) ⟨4096,512,by decide,by decide,by decide,by decide⟩) [.alloc 40,.alloc 8] ↔
      Each performAsserted LastFits (begin (fun _ => ⟨0,0⟩) ⟨4096,512,by decide,by decide,by decide,by decide⟩) [.alloc 40,.alloc 8] :=
  each_asserts_iff _ _ _ ⟨trivial,fun _ _ => ⟨trivial,fun _ _ => trivial⟩⟩

/-- The hole of the first block is chosen while the end of the pool is free too. -/
theorem hole_asserts :
    Each performAsserted Frees (begin (fun _ => ⟨0,0⟩) ⟨4096,512,by decide,by decide,by decide,by decide⟩)
        [.alloc 40,.alloc 8,.free 4128,.alloc 4] ∧
      ¬Each performAsserted Asserts (begin (fun _ => ⟨0,0⟩) ⟨4096,512,by decide,by decide,by decide,by decide⟩)
        [.alloc 40,.alloc 8,.free 4128,.alloc 4] := by
  refine ⟨⟨trivial,fun s1 first => ⟨trivial,fun s2 second => ⟨.inr ⟨40,?_⟩,fun s3 _ => ⟨trivial,fun _ _ => trivial⟩⟩⟩⟩,fun each => ?_⟩
  · cases first
    cases second
    decide
  · obtain ⟨out,given,asserted,_⟩ := (((each.2 _ rfl).2 _ rfl).2 _ rfl).1
    obtain rfl := Option.some.inj given
    revert asserted
    decide

end XivelyClient.HeapAllocator.Session
