import XivelyClient.Senml.Sizes

/-! What the contents of the fields, and the appends that fail, may do to the text that is handed out. -/
namespace XivelyClient.Senml

open Json (Value Members Items quoted raw comma colon quote closeObject Plain Sound Follows Stop)

section Appends

variable {allocates : Nat → Bool}

theorem assureBufLen_data {granted : Bool} {desc desc' : DataDesc} {len : Nat} {state : XiState}
    (assured : desc.assureBufLen granted len = some (state,desc')) : desc'.data = desc.data := by
  rw [DataDesc.assureBufLen] at assured
  split at assured
  · cases assured
    rfl
  · simp only [DataDesc.realloc] at assured
    split_ifs at assured
    · cases assured
      rfl
    · cases assured
      rfl

/-- An append that fails leaves the buffer as it was. -/
theorem append_outcome {piece : List UInt8} {out out' : Out} {state : XiState} (appended : append allocates piece out = some (state,out')) :
    (state = .ok ∧ out'.desc.data = out.desc.data ++ piece) ∨ (state ≠ .ok ∧ out'.desc.data = out.desc.data) := by
  obtain ⟨⟨state',desc⟩,resized,same⟩ := Option.map_eq_some_iff.mp appended
  cases same
  rw [DataDesc.appendDataResize] at resized
  split at resized
  · rename_i assured
    obtain ⟨desc',copied,same⟩ := Option.map_eq_some_iff.mp resized
    cases same
    rw [DataDesc.copyIn] at copied
    split at copied
    · cases copied
      exact .inl ⟨rfl,congrArg (· ++ piece) (assureBufLen_data assured)⟩
    · cases copied
  · rename_i failed assured
    cases resized
    exact .inr ⟨failed,assureBufLen_data assured⟩
  · cases resized

/-- Of checked appends some first ones are made, and all of them where the last state is a good one. -/
theorem appendAll_outcome {pieces : List (List UInt8)} {out out' : Out} {state : XiState}
    (appended : appendAll allocates pieces out = some (state,out')) :
    ∃ k ≤ pieces.length, out'.desc.data = out.desc.data ++ (pieces.take k).flatten ∧ (state = .ok ↔ k = pieces.length) := by
  induction pieces generalizing out with
  | nil =>
    cases appended
    exact ⟨0,Nat.le_refl 0,by simp,by simp⟩
  | cons piece rest ih =>
    obtain ⟨⟨first,mid⟩,one,more⟩ := Option.bind_eq_some_iff.mp appended
    dsimp only at more
    split at more
    · rename_i ok
      rcases append_outcome one with ⟨_,data⟩ | ⟨failed,_⟩
      · obtain ⟨k,bound,others,whole⟩ := ih more
        refine ⟨k + 1,Nat.succ_le_succ bound,?_,?_⟩
        · rw [others,data,List.take_succ_cons,List.flatten_cons,List.append_assoc]
        · rw [whole,List.length_cons,Nat.add_right_cancel_iff]
      · exact absurd ok failed
    · rename_i failed
      cases more
      rcases append_outcome one with ⟨ok,_⟩ | ⟨_,data⟩
      · exact absurd ok failed
      · refine ⟨0,Nat.zero_le _,by rw [data]; simp,?_⟩
        simp only [List.length_cons]
        exact ⟨fun ok => absurd ok failed,fun zero => absurd zero (Nat.zero_ne_add_one _)⟩

end Appends

section Cuts

/-- What stands behind a base field: another one, or what is left of it, or the end. -/
structure Tail (rest : List UInt8) : Prop where
  starts : ∃ b left, rest = b :: left ∧ (b = comma ∨ b = closeObject)
  behindString : ∀ n content left, Json.string n rest = some (content,left) → left.head? = some 0x62

theorem tail_close : Tail [closeObject] := by
  refine ⟨⟨_,_,rfl,.inr rfl⟩,fun n content left read => ?_⟩
  cases n with
  | zero => cases read
  | succ n =>
    rw [Json.string,if_neg (by decide),if_neg (by decide),if_neg (by decide)] at read
    obtain ⟨_,later,_⟩ := Option.map_eq_some_iff.mp read
    cases n <;> cases later

theorem Tail.value {rest : List UInt8} (tail : Tail rest) (n : Nat) : Json.value n rest = none := by
  obtain ⟨b,left,rfl,isMark⟩ := tail.starts
  cases n with
  | zero => rfl
  | succ n =>
    rcases isMark with rfl | rfl
    all_goals rw [Json.value,Json.skipBlanks_cons (by decide)]; rfl

theorem Tail.members {rest : List UInt8} (tail : Tail rest) (n : Nat) : Json.members n rest = none := by
  obtain ⟨b,left,rfl,isMark⟩ := tail.starts
  cases n with
  | zero => rfl
  | succ n =>
    rcases isMark with rfl | rfl
    all_goals rw [Json.members,Json.expect_cons (by decide),if_neg (by decide),Option.bind_none]

theorem Tail.ends {rest : List UInt8} (tail : Tail rest) : Json.Ends rest := by
  obtain ⟨b,left,rfl,isMark⟩ := tail.starts
  rcases isMark with rfl | rfl
  · exact Json.ends_cons (by decide)
  · exact Json.ends_cons (by decide)

/-- A base field: cut short, it is not read as its value, unless another key comes right behind it. -/
structure BaseField (field : Field) : Prop where
  key : field.key.head? = some 0x62
  plain : Plain field.key
  reads : ∀ k n rest left, Tail rest → Json.value n ((field.content.take k).flatten ++ rest) = some (field.value,left) →
    left.head? ≠ some 0x62 → field.content.length ≤ k ∧ Sound field.value ∧ left = rest

theorem baseField_text {key : List UInt8} (string : CString) (letter : key.head? = some 0x62) (plain : Plain key) :
    BaseField (textField key string) := by
  refine ⟨letter,plain,fun k n rest left tail read noKey => ?_⟩
  cases n with
  | zero => cases read
  | succ n =>
    match k with
    | 0 => cases (tail.value (n + 1)).symm.trans read
    | 1 =>
      obtain ⟨⟨content,left'⟩,inside,same⟩ := Option.map_eq_some_iff.mp ((Json.value_quote n rest).symm.trans read)
      cases same
      exact absurd (tail.behindString n _ _ inside) noKey
    | 2 =>
      simp only [textField,List.take_succ_cons,List.take_zero,List.flatten_cons,List.flatten_nil,List.append_nil,patQuot,
        List.cons_append] at read
      obtain ⟨⟨content,left'⟩,inside,same⟩ := Option.map_eq_some_iff.mp ((Json.value_quote n _).symm.trans read)
      cases same
      obtain ⟨b,after,rfl,isMark⟩ := tail.starts
      rcases isMark with rfl | rfl
      · exact absurd inside (Json.string_unquoted Stop.comma (by decide))
      · exact absurd inside (Json.string_unquoted Stop.closeObject (by decide))
    | k + 3 =>
      simp only [textField,List.take_succ_cons,List.take_nil,List.flatten_cons,List.flatten_nil,List.append_nil,patQuot,
        List.cons_append,List.append_assoc] at read
      obtain ⟨⟨content,left'⟩,inside,same⟩ := Option.map_eq_some_iff.mp ((Json.value_quote n _).symm.trans read)
      cases same
      obtain ⟨plainContent,ended⟩ := Json.string_quoted inside
      exact ⟨Nat.le_add_left 3 k,plainContent,ended⟩

theorem baseField_int {key : List UInt8} (time : Int32) (letter : key.head? = some 0x62) (plain : Plain key) :
    BaseField (intField key time) := by
  refine ⟨letter,plain,fun k n rest left tail read _ => ?_⟩
  match k with
  | 0 => cases (tail.value n).symm.trans read
  | k + 1 =>
    have whole : Json.value n (raw (intField key time).value ++ rest) = some ((intField key time).value,left) := by
      rw [(intField key time).written]
      rw [List.take_of_length_le (Nat.le_add_left 1 k : (intField key time).content.length ≤ k + 1)] at read
      exact read
    obtain ⟨sound,ended⟩ := Json.value_follows _ n rest left tail.ends whole
    exact ⟨Nat.le_add_left 1 k,sound,ended⟩

/-- Base fields, of each as many pieces as could be appended. -/
def cutText : List (Field × Nat) → List UInt8
  | [] => []
  | (field,k) :: rest => ((field.pieces 1).take k).flatten ++ cutText rest

theorem tail_cutText {cuts : List (Field × Nat)} (base : ∀ cut ∈ cuts, BaseField cut.1) : Tail (cutText cuts ++ [closeObject]) := by
  induction cuts with
  | nil => exact tail_close
  | cons cut cuts ih =>
    obtain ⟨field,k⟩ := cut
    have others := ih fun c inside => base c (List.mem_cons_of_mem _ inside)
    rw [cutText,List.append_assoc]
    match k with
    | 0 => exact others
    | 1 =>
      refine ⟨⟨_,_,rfl,.inl rfl⟩,fun n content left read => ?_⟩
      cases n with
      | zero => cases read
      | succ n =>
        obtain ⟨⟨more,left'⟩,later,same⟩ := Option.map_eq_some_iff.mp read
        cases same
        exact others.behindString n _ _ later
    | k + 2 =>
      refine ⟨⟨_,_,rfl,.inl rfl⟩,fun n content left read => ?_⟩
      have letter := (base (field,k + 2) (List.mem_cons_self ..)).key
      cases n with
      | zero => cases read
      | succ n =>
        obtain ⟨⟨more,left'⟩,later,same⟩ := Option.map_eq_some_iff.mp read
        cases same
        cases n with
        | zero => cases later
        | succ n =>
          cases later
          dsimp only at letter
          cases keyIs : field.key with
          | nil => rw [keyIs] at letter; cases letter
          | cons b key =>
            rw [keyIs] at letter
            exact letter

/-- What follows begins with a mark, not with the letter of a key. -/
theorem follows_head {n : Nat} {src left : List UInt8} {ms : Members} (follow : Follows n src ms left) : src.head? ≠ some 0x62 := by
  intro letter
  cases src with
  | nil => cases letter
  | cons b src =>
    obtain rfl := Option.some.inj letter
    rw [Follows,Json.expect_cons (by decide),if_neg (by decide),Json.expect_cons (by decide),if_neg (by decide)] at follow
    rcases follow with ⟨closes,_⟩ | ⟨_,_,separates,_⟩
    · cases closes
    · cases separates

/-- Of a base field nothing is there, or its key is read, and a value behind it. -/
theorem follows_cut {field : Field} (base : BaseField field) {rest left : List UInt8} (tail : Tail rest) {n k : Nat} {ms : Members}
    (follow : Follows n (((field.pieces 1).take k).flatten ++ rest) ms left) :
    k = 0 ∨ ∃ j v ms', k = j + 2 ∧ ms = .cons field.key v ms' ∧ ∃ m src,
      Json.value m ((field.content.take j).flatten ++ rest) = some (v,src) ∧ Follows m src ms' left := by
  match k with
  | 0 => exact .inl rfl
  | 1 => cases (tail.members n).symm.trans (Json.follows_comma follow)
  | j + 2 =>
    have text : ((field.pieces 1).take (j + 2)).flatten ++ rest =
        comma :: (quoted field.key ++ colon :: ((field.content.take j).flatten ++ rest)) := by
      have pieces : field.pieces 1 = patColn :: pattern field.key :: field.content := rfl
      rw [pieces,List.take_succ_cons,List.take_succ_cons,List.flatten_cons,List.flatten_cons,pattern,List.append_assoc,
        List.append_assoc,List.append_assoc]
      rfl
    rw [text] at follow
    have read := Json.follows_comma follow
    cases n with
    | zero => cases read
    | succ m =>
      cases ms with
      | nil => exact absurd read Json.members_ne_nil
      | cons key v ms' =>
        obtain ⟨content,rest',src,named,separated,valued,others⟩ := Json.members_cons read
        obtain ⟨rfl,rfl⟩ := Json.string_plain_content base.plain named
        rw [Json.expect_cons (by decide),if_pos rfl] at separated
        cases separated
        exact .inr ⟨j,v,ms',rfl,rfl,m,src,valued,others⟩

theorem follows_keys {cuts : List (Field × Nat)} (base : ∀ cut ∈ cuts, BaseField cut.1) {n : Nat} {key left : List UInt8} {v : Value}
    {ms : Members} (follow : Follows n (cutText cuts ++ [closeObject]) (.cons key v ms) left) :
    key ∈ cuts.map fun cut => cut.1.key := by
  induction cuts with
  | nil => cases (Json.follows_close follow).2
  | cons cut cuts ih =>
    obtain ⟨field,k⟩ := cut
    have others := fun c inside => base c (List.mem_cons_of_mem (field,k) inside)
    rw [cutText,List.append_assoc] at follow
    rw [List.map_cons,List.mem_cons]
    rcases follows_cut (base _ (List.mem_cons_self ..)) (tail_cutText others) follow with rfl | ⟨j,v',ms',_,same,_⟩
    · exact .inr (ih others follow)
    · cases same
      exact .inl rfl

/-- Where the base fields are read as `kept`, these are whole and sound, and nothing is there of the others. -/
theorem follows_kept {cuts : List (Field × Nat)} (base : ∀ cut ∈ cuts, BaseField cut.1)
    (distinct : (cuts.map fun cut => cut.1.key).Nodup) {kept : List Field} (inside : kept.Sublist (cuts.map Prod.fst)) {n : Nat}
    {left : List UInt8} (follow : Follows n (cutText cuts ++ [closeObject]) (Members.ofList (kept.map Field.member)) left) :
    ∀ cut ∈ cuts, (cut.1.key ∈ kept.map Field.key → cut.1.content.length + 2 ≤ cut.2 ∧ Sound cut.1.value) ∧
      (cut.1.key ∉ kept.map Field.key → cut.2 = 0) := by
  induction cuts generalizing kept n with
  | nil => exact nofun
  | cons cut cuts ih =>
    obtain ⟨field,k⟩ := cut
    have others := fun c member => base c (List.mem_cons_of_mem (field,k) member)
    have first := base (field,k) (List.mem_cons_self ..)
    obtain ⟨fresh,distinct'⟩ := List.nodup_cons.mp distinct
    have keys : (cuts.map Prod.fst).map Field.key = cuts.map fun cut => cut.1.key := List.map_map
    rw [cutText,List.append_assoc] at follow
    have opened := follows_cut first (tail_cutText others) follow
    cases inside with
    | cons _ inside =>
      have missing : field.key ∉ kept.map Field.key := fun there => fresh (keys ▸ (inside.map Field.key).subset there)
      have zero : k = 0 := by
        rcases opened with zero | ⟨j,v,ms',_,same,_⟩
        · exact zero
        · cases kept with
          | nil => cases same
          | cons g kept =>
            have key : g.key = field.key := (Members.cons.inj same).1
            exact absurd (List.mem_cons.mpr (.inl key.symm)) missing
      subst zero
      intro c member
      rcases List.mem_cons.mp member with rfl | member
      · exact ⟨fun there => absurd there missing,fun _ => rfl⟩
      · exact ih others distinct' inside follow c member
    | cons_cons _ inside =>
      rename_i kept'
      rcases opened with rfl | ⟨j,v,ms',rfl,same,m,src,valued,rest⟩
      · exact absurd (follows_keys others follow) fresh
      · cases same
        obtain ⟨whole,sound,rfl⟩ := first.reads j m _ src (tail_cutText others) valued (follows_head rest)
        intro c member
        rw [List.map_cons,List.mem_cons]
        rcases List.mem_cons.mp member with rfl | member
        · exact ⟨fun _ => ⟨Nat.add_le_add_right whole 2,sound⟩,fun absent => absurd (.inl rfl) absent⟩
        · have otherKey : c.1.key ≠ field.key := fun same => fresh (List.mem_map.mpr ⟨c,member,same⟩)
          obtain ⟨kept_whole,kept_absent⟩ := ih others distinct' inside rest c member
          exact ⟨fun there => kept_whole (there.resolve_left otherKey),fun absent => kept_absent fun there => absent (.inr there)⟩

end Cuts

section Safety

variable (allocates : Nat → Bool)

/-- An output that is the JSON of the structure; the base time is no string, and may be missing. -/
def Carries (senml : Senml) (text : List UInt8) : Prop :=
  ∃ time, (time = senml.baseTime ∨ time = none) ∧ Json.parse text = some {senml with baseTime := time}.json

/-- An error, or an output that carries the structure. -/
def Safe (senml : Senml) : Prop :=
  ∃ state text, serialize allocates true (some senml) = some (state,text) ∧ (state = .ok → Carries senml text)

/-- A run up to the closing brace, with the states of the base fields, which the serializer does not look at. -/
structure Completion (senml : Senml) where
  before : Out
  named : Out
  timed : Out
  done : Out
  closed : Out
  nameState : XiState
  timeState : XiState
  unitsState : XiState
  body : serializeBody allocates senml ⟨DataDesc.makeEmptyDescAlloc startSize,1⟩ = some (.ok,before)
  name : writeBaseName allocates senml before = some (nameState,named)
  time : writeBaseTime allocates senml named = some (timeState,timed)
  units : writeBaseUnits allocates senml timed = some (unitsState,done)
  close : serializeClose allocates done = some (.ok,closed)

/-- A field of which the first `k` pieces are there. -/
def cut (field : Option Field) (k : Nat) : List (Field × Nat) := field.toList.map fun f => (f,k)

theorem cut_whole {field : Option Field} {k : Nat} (whole : ∀ f ∈ field, f.content.length + 2 ≤ k) :
    cutText (cut field k) = (behind field.toList).flatten := by
  cases field with
  | none => rfl
  | some f =>
    have pieces : (f.pieces 1).length ≤ k := whole f rfl
    simp only [cut,Option.toList_some,List.map_cons,List.map_nil,cutText,behind,List.flatMap_cons,List.flatMap_nil,List.append_nil,
      List.take_of_length_le pieces]

theorem cutText_append (xs ys : List (Field × Nat)) : cutText (xs ++ ys) = cutText xs ++ cutText ys := by
  induction xs with
  | nil => rfl
  | cons cut xs ih => rw [List.cons_append,cutText,cutText,ih,List.append_assoc]

theorem base_outcome {allocates : Nat → Bool} {field : Option Field} {out out' : Out} {state : XiState}
    (appended : appendAll allocates (behind field.toList) out = some (state,out')) :
    ∃ k, out'.desc.data = out.desc.data ++ cutText (cut field k) ∧ (state = .ok ↔ ∀ f ∈ field, f.content.length + 2 ≤ k) := by
  obtain ⟨k,bound,data,whole⟩ := appendAll_outcome appended
  cases field with
  | none =>
    cases appended
    exact ⟨0,(List.append_nil _).symm,fun _ => nofun,fun _ => rfl⟩
  | some f =>
    have single : behind (some f).toList = f.pieces 1 := List.flatMap_singleton _ _
    have length : (f.pieces 1).length = f.content.length + 2 := rfl
    rw [single] at data whole bound
    rw [length] at whole bound
    refine ⟨k,?_,?_⟩
    · rw [data]
      exact congrArg (out.desc.data ++ ·) (List.append_nil _).symm
    · rw [whole]
      constructor
      · intro all g isField
        obtain rfl := Option.mem_some_iff.mp isField
        exact Nat.le_of_eq all.symm
      · intro all
        exact Nat.le_antisymm bound (all f rfl)

def baseCuts (senml : Senml) (k l m : Nat) : List (Field × Nat) :=
  cut (senml.baseName.map (textField keyBaseName)) k ++ (cut (senml.baseTime.map (intField keyBaseTime)) l ++
    cut (senml.baseUnits.map (textField keyBaseUnits)) m)

/-- The text of a structure up to its base fields. -/
def bodyText (senml : Senml) : List UInt8 := Json.openObject :: (quoted keyEntries ++ colon :: raw senml.entriesJson)

namespace Completion

variable {allocates} {senml : Senml} (run : Completion allocates senml)
include run

theorem writable : ∀ entry ∈ senml.entries, Writable entry := by
  intro entry member
  by_contra unwritable
  exact body_fails allocates ⟨entry,member,unwritable⟩ _ _ run.body

theorem before_text : run.before.desc.data = bodyText senml := by
  have body := run.body
  rw [body_written allocates run.writable] at body
  obtain ⟨k,_,data,whole⟩ := appendAll_outcome body
  rw [whole.mp rfl,List.take_length] at data
  have few : senml.entries.length < 2 ^ 32 := by
    have some_bytes := entries_length senml.entries 0
    have word := run.before.desc.length_lt
    rw [DataDesc.length,data,bodyPieces,List.flatten_cons,List.flatten_append,List.length_append,List.length_append,
      List.length_append] at word
    omega
  rw [data,body_text few]
  rfl

theorem outcome : ∃ k l m, run.closed.desc.data = bodyText senml ++ cutText (baseCuts senml k l m) ++ [closeObject] ∧
    (run.nameState = .ok ↔ ∀ f ∈ senml.baseName.map (textField keyBaseName), f.content.length + 2 ≤ k) ∧
    (run.timeState = .ok ↔ ∀ f ∈ senml.baseTime.map (intField keyBaseTime), f.content.length + 2 ≤ l) ∧
    (run.unitsState = .ok ↔ ∀ f ∈ senml.baseUnits.map (textField keyBaseUnits), f.content.length + 2 ≤ m) ∧
    run.timed.desc.data = run.named.desc.data ++ cutText (cut (senml.baseTime.map (intField keyBaseTime)) l) := by
  obtain ⟨k,name,nameWhole⟩ := base_outcome ((baseName_written allocates senml) ▸ run.name)
  obtain ⟨l,time,timeWhole⟩ := base_outcome ((baseTime_written allocates senml) ▸ run.time)
  obtain ⟨m,units,unitsWhole⟩ := base_outcome ((baseUnits_written allocates senml) ▸ run.units)
  have closed : run.closed.desc.data = run.done.desc.data ++ [closeObject] := by
    rcases append_outcome run.close with ⟨_,data⟩ | ⟨failed,_⟩
    · exact data
    · exact absurd rfl failed
  refine ⟨k,l,m,?_,nameWhole,timeWhole,unitsWhole,time⟩
  rw [closed,units,time,name,run.before_text,baseCuts,cutText_append,cutText_append]
  simp only [List.append_assoc]

end Completion

theorem cut_keys (content : Option α) (make : α → Field) {key : List UInt8} (named : ∀ c, (make c).key = key) (k : Nat) :
    ((cut (content.map make) k).map fun c => c.1.key).Sublist [key] := by
  cases content with
  | none => exact List.nil_sublist _
  | some c =>
    simp only [cut,Option.map_some,Option.toList_some,List.map_cons,List.map_nil,named]
    exact List.Sublist.refl _

theorem mem_cut {field : Option Field} {k : Nat} {c : Field × Nat} : c ∈ cut field k ↔ ∃ f ∈ field, c = (f,k) := by
  cases field with
  | none => exact ⟨nofun,nofun⟩
  | some f => simp [cut]

theorem baseCuts_distinct (senml : Senml) (k l m : Nat) : ((baseCuts senml k l m).map fun c => c.1.key).Nodup := by
  have inside : ((baseCuts senml k l m).map fun c => c.1.key).Sublist [keyBaseName,keyBaseTime,keyBaseUnits] := by
    rw [baseCuts,List.map_append,List.map_append]
    exact (cut_keys senml.baseName (textField keyBaseName) (fun _ => rfl) k).append <|
      (cut_keys senml.baseTime (intField keyBaseTime) (fun _ => rfl) l).append
      (cut_keys senml.baseUnits (textField keyBaseUnits) (fun _ => rfl) m)
  exact inside.nodup (by decide)

theorem baseCuts_base (senml : Senml) (k l m : Nat) : ∀ c ∈ baseCuts senml k l m, BaseField c.1 := by
  intro c member
  simp only [baseCuts,List.mem_append,mem_cut] at member
  rcases member with ⟨f,isField,rfl⟩ | ⟨f,isField,rfl⟩ | ⟨f,isField,rfl⟩
  · obtain ⟨string,_,rfl⟩ := Option.map_eq_some_iff.mp isField
    exact baseField_text string rfl (by decide)
  · obtain ⟨time,_,rfl⟩ := Option.map_eq_some_iff.mp isField
    exact baseField_int time rfl (by decide)
  · obtain ⟨string,_,rfl⟩ := Option.map_eq_some_iff.mp isField
    exact baseField_text string rfl (by decide)

theorem baseCuts_fields (senml : Senml) (k l m : Nat) : (baseCuts senml k l m).map Prod.fst = baseFields senml := by
  have fields : ∀ (field : Option Field) (k : Nat), (cut field k).map Prod.fst = field.toList := by
    intro field k
    cases field <;> rfl
  rw [baseCuts,List.map_append,List.map_append,fields,fields,fields,baseFields]

theorem parse_cut {senml : Senml} {cuts : List (Field × Nat)} (base : ∀ c ∈ cuts, BaseField c.1) {ms : Members}
    (parsed : Json.parse (bodyText senml ++ cutText cuts ++ [closeObject]) = some (.object (.cons keyEntries senml.entriesJson ms))) :
    Sound senml.entriesJson ∧ ∃ n left, Follows n (cutText cuts ++ [closeObject]) ms left := by
  have text : bodyText senml ++ cutText cuts ++ [closeObject] = Json.openObject ::
      (quoted keyEntries ++ colon :: (raw senml.entriesJson ++ (cutText cuts ++ [closeObject]))) := by
    simp only [bodyText,List.cons_append,List.append_assoc]
  rw [text,Json.parse] at parsed
  obtain ⟨⟨v,left⟩,read,same⟩ := Option.bind_eq_some_iff.mp parsed
  dsimp only at same
  split at same
  · cases same
    rw [List.length_cons,Json.value_object] at read
    split at read
    · cases read
    · obtain ⟨⟨members,left'⟩,inside,same⟩ := Option.map_eq_some_iff.mp read
      cases same
      rw [List.length_append,List.length_cons,← Nat.add_assoc] at inside
      obtain ⟨_,src,valued,follow⟩ := Json.members_key inside
      obtain ⟨sound,rfl⟩ := Json.value_follows _ _ _ src (tail_cutText base).ends valued
      exact ⟨sound,_,_,follow⟩
  · cases same

variable {allocates}

theorem Completion.harmless {senml : Senml} (run : Completion allocates senml) (carries : Carries senml run.closed.desc.data) :
    Escapeless senml ∧ run.nameState = .ok ∧ (run.timeState = .ok ∨ run.timed.desc.data = run.named.desc.data) ∧
      run.unitsState = .ok := by
  obtain ⟨k,l,m,closed,nameWhole,timeWhole,unitsWhole,timed⟩ := run.outcome
  obtain ⟨time,isTime,parsed⟩ := carries
  rw [closed] at parsed
  have base := baseCuts_base senml k l m
  obtain ⟨entries,n,left,follow⟩ := parse_cut base parsed
  have kept : (baseFields {senml with baseTime := time}).Sublist ((baseCuts senml k l m).map Prod.fst) := by
    rw [baseCuts_fields]
    rcases isTime with rfl | rfl
    · exact List.Sublist.refl _
    · exact List.Sublist.append (List.Sublist.refl _) (List.Sublist.append (List.nil_sublist _) (List.Sublist.refl _))
  have all := follows_kept base (baseCuts_distinct senml k l m) kept follow
  have keyOf : ∀ f ∈ baseFields {senml with baseTime := time}, f.key ∈ (baseFields {senml with baseTime := time}).map Field.key :=
    fun f member => List.mem_map_of_mem member
  have name : ∀ f ∈ senml.baseName.map (textField keyBaseName), f.content.length + 2 ≤ k ∧ Sound f.value := by
    intro f isField
    refine (all (f,k) ?_).1 (keyOf f ?_)
    · exact List.mem_append_left _ (mem_cut.mpr ⟨f,isField,rfl⟩)
    · exact List.mem_append_left _ (Option.mem_toList.mpr isField)
  have units : ∀ f ∈ senml.baseUnits.map (textField keyBaseUnits), f.content.length + 2 ≤ m ∧ Sound f.value := by
    intro f isField
    refine (all (f,m) ?_).1 (keyOf f ?_)
    · exact List.mem_append_right _ (List.mem_append_right _ (mem_cut.mpr ⟨f,isField,rfl⟩))
    · exact List.mem_append_right _ (List.mem_append_right _ (Option.mem_toList.mpr isField))
  have strings : Escapeless senml := by
    refine ⟨(sound_entries run.writable).mp entries,?_,?_⟩
    · intro string isName
      exact (name (textField keyBaseName string) (Option.mem_map_of_mem _ isName)).2
    · intro string isUnits
      exact (units (textField keyBaseUnits string) (Option.mem_map_of_mem _ isUnits)).2
  refine ⟨strings,nameWhole.mpr fun f isField => (name f isField).1,?_,unitsWhole.mpr fun f isField => (units f isField).1⟩
  rcases isTime with rfl | rfl
  · refine .inl (timeWhole.mpr fun f isField => ?_)
    refine ((all (f,l) ?_).1 (keyOf f ?_)).1
    · exact List.mem_append_right _ (List.mem_append_left _ (mem_cut.mpr ⟨f,isField,rfl⟩))
    · exact List.mem_append_right _ (List.mem_append_left _ (Option.mem_toList.mpr isField))
  · refine .inr ?_
    rw [timed]
    cases given : senml.baseTime with
    | none => exact List.append_nil _
    | some t =>
      have member : (intField keyBaseTime t,l) ∈ baseCuts senml k l m := by
        rw [baseCuts,given]
        exact List.mem_append_right _ (List.mem_append_left _ (List.mem_singleton.mpr rfl))
      have absent : keyBaseTime ∉ (baseFields {senml with baseTime := none}).map Field.key := by
        intro there
        obtain ⟨f,inside,same⟩ := List.mem_map.mp there
        rcases List.mem_append.mp inside with isField | isField
        · obtain ⟨string,_,rfl⟩ := Option.map_eq_some_iff.mp (Option.mem_toList.mp isField)
          exact absurd same (show keyBaseName ≠ keyBaseTime by decide)
        · obtain ⟨string,_,rfl⟩ := Option.map_eq_some_iff.mp (Option.mem_toList.mp isField)
          exact absurd same (show keyBaseUnits ≠ keyBaseTime by decide)
      have zero : l = 0 := (all _ member).2 absent
      rw [zero]
      exact List.append_nil _

theorem Completion.carries {senml : Senml} (run : Completion allocates senml) (escapeless : Escapeless senml)
    (name : run.nameState = .ok) (time : run.timeState = .ok ∨ run.timed.desc.data = run.named.desc.data)
    (units : run.unitsState = .ok) : Carries senml run.closed.desc.data := by
  obtain ⟨k,l,m,closed,nameWhole,timeWhole,unitsWhole,timed⟩ := run.outcome
  have text : ∀ t, cutText (cut (senml.baseTime.map (intField keyBaseTime)) l) = (behind (t.map (intField keyBaseTime)).toList).flatten →
      run.closed.desc.data = raw {senml with baseTime := t}.json := by
    intro t written
    have entries : raw (entriesJson {senml with baseTime := t}) = raw senml.entriesJson := rfl
    rw [closed,json_text,← behind_text,baseFields,behind_append,behind_append,List.flatten_append,List.flatten_append,← written,
      ← cut_whole (nameWhole.mp name),← cut_whole (unitsWhole.mp units),baseCuts,cutText_append,cutText_append,entries]
    rfl
  have sound : ∀ t, Sound {senml with baseTime := t}.json := by
    intro t
    have writable : ∀ entry ∈ entries {senml with baseTime := t}, Writable entry := run.writable
    exact (sound_json writable).mpr escapeless
  rcases time with whole | unchanged
  · refine ⟨senml.baseTime,.inl rfl,?_⟩
    rw [text senml.baseTime (cut_whole (timeWhole.mp whole))]
    exact Json.parse_raw (sound _)
  · have nothing : cutText (cut (senml.baseTime.map (intField keyBaseTime)) l) = [] := by
      rw [unchanged] at timed
      exact List.append_cancel_left (timed.symm.trans (List.append_nil _).symm)
    refine ⟨none,.inr rfl,?_⟩
    rw [text none nothing]
    exact Json.parse_raw (sound none)

section Sizes

def namePieces (senml : Senml) : List (List UInt8) := behind (senml.baseName.map (textField keyBaseName)).toList
def timePieces (senml : Senml) : List (List UInt8) := behind (senml.baseTime.map (intField keyBaseTime)).toList
def unitsPieces (senml : Senml) : List (List UInt8) := behind (senml.baseUnits.map (textField keyBaseUnits)).toList

variable (allocates) (senml : Senml)

def bodyEnd : Place := behindPieces allocates startPlace (checkedPieces senml)
def nameEnd : Place := behindPieces allocates (bodyEnd allocates senml) (namePieces senml)
def timeEnd : Place := behindPieces allocates (nameEnd allocates senml) (timePieces senml)
def unitsEnd : Place := behindPieces allocates (timeEnd allocates senml) (unitsPieces senml)
def closeEnd : Place := behindPieces allocates (unitsEnd allocates senml) [patClose]

/-- Every entry can be written, and no append before the base fields is refused. -/
def BodyWhole : Prop := (∀ entry ∈ senml.entries, Writable entry) ∧ Whole allocates startPlace (checkedPieces senml)

instance : Decidable (BodyWhole allocates senml) := inferInstanceAs (Decidable (_ ∧ _))

/-- How long the text gets. -/
def textLength : Nat := if BodyWhole allocates senml then (closeEnd allocates senml).length else (bodyEnd allocates senml).length

/-- Nothing that is checked is refused, the closing brace behind the base fields neither. -/
def Completes : Prop := BodyWhole allocates senml ∧ Whole allocates (unitsEnd allocates senml) [patClose]

/-- The contents need no escapes, and of the base fields only the base time is missing, and this from its comma on. -/
def Harmless : Prop := Escapeless senml ∧ Whole allocates (bodyEnd allocates senml) (namePieces senml) ∧
  (Whole allocates (nameEnd allocates senml) (timePieces senml) ∨ (timeEnd allocates senml).length = (nameEnd allocates senml).length) ∧
  Whole allocates (timeEnd allocates senml) (unitsPieces senml)

variable {allocates senml}

/-- A step whose state is not looked at, told by sizes. -/
theorem ignoring_sized {pieces : List (List UInt8)} {out : Out} (sized : Sized out) (next : Step) :
    (2 ^ 31 < (behindPieces allocates out.place pieces).length ∧ ignoring (appendAll allocates pieces) next out = none) ∨
      ∃ state out', appendAll allocates pieces out = some (state,out') ∧ Sized out' ∧
        out'.place = behindPieces allocates out.place pieces ∧ (state = .ok ↔ Whole allocates out.place pieces) ∧
        ignoring (appendAll allocates pieces) next out = next out' := by
  rcases Nat.lt_or_ge (2 ^ 31) (behindPieces allocates out.place pieces).length with long | short
  · refine .inl ⟨long,?_⟩
    rw [ignoring,appendAll_overruns sized long]
    rfl
  · obtain ⟨state,out',appended,sized',place,whole⟩ := appendAll_sized sized short
    refine .inr ⟨state,out',appended,sized',place,whole,?_⟩
    rw [ignoring,appended]
    rfl

theorem bodyEnd_le : (bodyEnd allocates senml).length ≤ textLength allocates senml := by
  rw [textLength]
  split
  · exact (le_behindPieces allocates (bodyEnd allocates senml) (namePieces senml)).trans <|
      (le_behindPieces allocates (nameEnd allocates senml) (timePieces senml)).trans <|
      (le_behindPieces allocates (timeEnd allocates senml) (unitsPieces senml)).trans <|
      le_behindPieces allocates (unitsEnd allocates senml) [patClose]
  · exact Nat.le_refl _

theorem body_sized : (2 ^ 31 < (bodyEnd allocates senml).length ∧
      serializeBody allocates senml ⟨DataDesc.makeEmptyDescAlloc startSize,1⟩ = none) ∨
    ∃ state out, serializeBody allocates senml ⟨DataDesc.makeEmptyDescAlloc startSize,1⟩ = some (state,out) ∧ Sized out ∧
      out.place = bodyEnd allocates senml ∧ (state = .ok ↔ BodyWhole allocates senml) := by
  obtain ⟨verdict,writable,checked⟩ := body_checked allocates senml
  rw [checked]
  rcases Nat.lt_or_ge (2 ^ 31) (bodyEnd allocates senml).length with long | short
  · refine .inl ⟨long,?_⟩
    rw [check,appendAll_overruns sized_start long]
    rfl
  · obtain ⟨state,out,appended,sized,place,whole⟩ := appendAll_sized sized_start short
    refine .inr ⟨if state = .ok then verdict else state,out,?_,sized,place,?_⟩
    · rw [check,appended]
      by_cases ok : state = .ok
      · simp only [Option.bind_some,if_pos ok,ends]
      · simp only [Option.bind_some,if_neg ok]
    · by_cases ok : state = .ok
      · rw [if_pos ok,writable,BodyWhole]
        exact (and_iff_left (whole.mp ok)).symm
      · rw [if_neg ok]
        exact iff_of_false ok fun both => ok (whole.mpr both.2)

/-- What follows a body that is written in full. -/
def afterBody (allocates : Nat → Bool) (senml : Senml) : Step :=
  ignoring (writeBaseName allocates senml) <| ignoring (writeBaseTime allocates senml) <| ignoring (writeBaseUnits allocates senml) <|
    serializeClose allocates

/-- The base fields and the closing brace, by their sizes. -/
theorem afterBody_sized {before : Out} (sized : Sized before) (place : before.place = bodyEnd allocates senml) :
    (2 ^ 31 < (closeEnd allocates senml).length ∧ afterBody allocates senml before = none) ∨
      ((closeEnd allocates senml).length ≤ 2 ^ 31 ∧ ∃ nameState named timeState timed unitsState done closeState closed,
        writeBaseName allocates senml before = some (nameState,named) ∧ writeBaseTime allocates senml named = some (timeState,timed) ∧
        writeBaseUnits allocates senml timed = some (unitsState,done) ∧ serializeClose allocates done = some (closeState,closed) ∧
        named.place = nameEnd allocates senml ∧ timed.place = timeEnd allocates senml ∧
        (nameState = .ok ↔ Whole allocates (bodyEnd allocates senml) (namePieces senml)) ∧
        (timeState = .ok ↔ Whole allocates (nameEnd allocates senml) (timePieces senml)) ∧
        (unitsState = .ok ↔ Whole allocates (timeEnd allocates senml) (unitsPieces senml)) ∧
        (closeState = .ok ↔ Whole allocates (unitsEnd allocates senml) [patClose]) ∧
        afterBody allocates senml before = some (closeState,closed)) := by
  have timeLonger := le_behindPieces allocates (nameEnd allocates senml) (timePieces senml)
  have unitsLonger := le_behindPieces allocates (timeEnd allocates senml) (unitsPieces senml)
  have closeLonger := le_behindPieces allocates (unitsEnd allocates senml) [patClose]
  rw [afterBody,baseName_written,baseTime_written,baseUnits_written,serializeClose,append_eq]
  rcases @ignoring_sized allocates (namePieces senml) before sized _ with ⟨long,overrun⟩ | ⟨nameState,named,name,sized,place₁,nameWhole,rest₁⟩
  · rw [place] at long
    exact .inl ⟨long.trans_le (timeLonger.trans (unitsLonger.trans closeLonger)),overrun⟩
  rw [place] at place₁ nameWhole
  rcases ignoring_sized sized _ with ⟨long,overrun⟩ | ⟨timeState,timed,time,sized,place₂,timeWhole,rest₂⟩
  · rw [place₁] at long
    exact .inl ⟨long.trans_le (unitsLonger.trans closeLonger),rest₁.trans overrun⟩
  rw [place₁] at place₂ timeWhole
  rcases ignoring_sized sized _ with ⟨long,overrun⟩ | ⟨unitsState,done,units,sized,place₃,unitsWhole,rest₃⟩
  · rw [place₂] at long
    exact .inl ⟨long.trans_le closeLonger,rest₁.trans (rest₂.trans overrun)⟩
  rw [place₂] at place₃ unitsWhole
  rcases Nat.lt_or_ge (2 ^ 31) (closeEnd allocates senml).length with long | short
  · refine .inl ⟨long,rest₁.trans (rest₂.trans (rest₃.trans (appendAll_overruns sized ?_)))⟩
    rwa [place₃]
  · obtain ⟨closeState,closed,close,_,_,closeWhole⟩ := @appendAll_sized allocates done [patClose] sized (by rwa [place₃])
    rw [place₃] at closeWhole
    exact .inr ⟨short,nameState,named,timeState,timed,unitsState,done,closeState,closed,name,time,units,close,place₁,place₂,nameWhole,
      timeWhole,unitsWhole,closeWhole,rest₁.trans (rest₂.trans (rest₃.trans close))⟩

end Sizes

section Runs

variable {senml : Senml} {state : XiState} {out : Out}

theorem not_safe (lost : jsonSerialize allocates (some senml) = none) : ¬ Safe allocates senml := by
  rintro ⟨state,text,ended,_⟩
  rw [serialize,lost] at ended
  cases ended

theorem safe_of_ran (ran : jsonSerialize allocates (some senml) = some (state,some out)) :
    Safe allocates senml ↔ (state = .ok → Carries senml out.desc.data) := by
  rw [Safe,serialize,ran]
  cases state <;> simp

theorem jsonSerialize_run (described : allocates 0 = true) (buffered : allocates 1 = true) : jsonSerialize allocates (some senml) =
    (check (serializeBody allocates senml) (afterBody allocates senml) ⟨DataDesc.makeEmptyDescAlloc startSize,1⟩).map
      fun (state,out) => (state,some out) := by
  simp only [jsonSerialize,described,buffered,Bool.not_true,Bool.false_eq_true,if_false]
  rfl

/-- The base time that leaves nothing behind is not there. -/
theorem Completion.unchanged (run : Completion allocates senml) :
    run.timed.desc.data = run.named.desc.data ↔ run.timed.place.length = run.named.place.length := by
  obtain ⟨_,l,_,_,_,_,_,timed⟩ := run.outcome
  constructor
  · exact congrArg List.length
  · intro same
    have same : run.timed.desc.data.length = run.named.desc.data.length := same
    rw [timed,List.length_append] at same
    have nothing : cutText (cut (senml.baseTime.map (intField keyBaseTime)) l) = [] := List.eq_nil_of_length_eq_zero (by omega)
    rw [timed,nothing,List.append_nil]

/-- With a buffer, told by where its text ends. -/
theorem safe_buffered (described : allocates 0 = true) (buffered : allocates 1 = true) : Safe allocates senml ↔
    textLength allocates senml ≤ 2 ^ 31 ∧ (Completes allocates senml → Harmless allocates senml) := by
  have run := @jsonSerialize_run allocates senml described buffered
  rcases @body_sized allocates senml with ⟨long,overrun⟩ | ⟨state,before,body,sized,place,whole⟩
  · rw [check,overrun] at run
    exact iff_of_false (not_safe run) fun both => absurd (bodyEnd_le.trans both.1) (Nat.not_le.mpr long)
  · rw [check,body] at run
    by_cases ok : state = .ok
    · have bodyWhole := whole.mp ok
      subst ok
      simp only [Option.bind_some,if_true] at run
      rw [textLength,if_pos bodyWhole]
      rcases afterBody_sized sized place with ⟨long,overrun⟩ | ⟨short,nameState,named,timeState,timed,unitsState,done,closeState,closed,name,
          time,units,close,place₁,place₂,nameWhole,timeWhole,unitsWhole,closeWhole,after⟩
      · rw [overrun] at run
        exact iff_of_false (not_safe run) fun both => absurd both.1 (Nat.not_le.mpr long)
      · rw [after] at run
        rw [safe_of_ran run,and_iff_right short]
        by_cases ended : closeState = .ok
        · subst ended
          let run : Completion allocates senml :=
            ⟨before,named,timed,done,closed,nameState,timeState,unitsState,body,name,time,units,close⟩
          have unchanged : timed.desc.data = named.desc.data ↔ (timeEnd allocates senml).length = (nameEnd allocates senml).length := by
            rw [← place₁,← place₂]
            exact run.unchanged
          have completes : Completes allocates senml := ⟨bodyWhole,closeWhole.mp rfl⟩
          constructor
          · intro carries _
            obtain ⟨escapeless,isName,isTime,isUnits⟩ := run.harmless (carries rfl)
            exact ⟨escapeless,nameWhole.mp isName,isTime.imp timeWhole.mp unchanged.mp,unitsWhole.mp isUnits⟩
          · intro harmless _
            obtain ⟨escapeless,isName,isTime,isUnits⟩ := harmless completes
            exact run.carries escapeless (nameWhole.mpr isName) (isTime.imp timeWhole.mpr unchanged.mpr) (unitsWhole.mpr isUnits)
        · exact iff_of_true (fun ok => absurd ok ended) fun completes => absurd (closeWhole.mpr completes.2) ended
    · have partial' : ¬ BodyWhole allocates senml := fun all => ok (whole.mpr all)
      simp only [Option.bind_some,if_neg ok,Option.map_some] at run
      rw [safe_of_ran run,textLength,if_neg partial',← place]
      exact iff_of_true (fun isOk => absurd isOk ok) ⟨sized.short,fun completes => absurd completes.1 partial'⟩

end Runs

/-- The serializer is safe just if it has no memory for its descriptor, or memory for the buffer, its text gets no longer than
`2 ^ 31` bytes, and where it is completed the contents and the refused appends are harmless. -/
theorem safe_iff (allocates : Nat → Bool) (senml : Senml) : Safe allocates senml ↔ allocates 0 = false ∨
    (allocates 1 = true ∧ textLength allocates senml ≤ 2 ^ 31 ∧ (Completes allocates senml → Harmless allocates senml)) := by
  cases described : allocates 0 with
  | false =>
    refine iff_of_true ⟨.outOfMemory,[],?_,nofun⟩ (.inl rfl)
    rw [serialize,jsonSerialize,described]
    rfl
  | true =>
    rw [or_iff_right (by simp)]
    cases buffered : allocates 1 with
    | false =>
      refine iff_of_false (not_safe ?_) (by simp)
      rw [jsonSerialize,described,buffered]
      rfl
    | true => exact (safe_buffered described buffered).trans (and_iff_right rfl).symm

/-- A base name of one quote. -/
def quoteName : Senml := {baseName := some ⟨[quote],by decide⟩}

theorem quoteName_breaks : ¬ Safe (fun _ => true) quoteName := by
  rintro ⟨state,text,ran,carries⟩
  obtain ⟨out,written,data⟩ : ∃ out, jsonSerialize (fun _ => true) (some quoteName) = some (.ok,some out) ∧
      out.desc.data = raw quoteName.json :=
    serialize_of_short (fun _ => rfl) (fun _ inside => absurd inside List.not_mem_nil) (by decide)
  rw [serialize,written] at ran
  cases ran
  obtain ⟨time,_,parsed⟩ := carries rfl
  have broken : Json.parse (raw quoteName.json) = none := rfl
  rw [data,broken] at parsed
  cases parsed

end Safety

end XivelyClient.Senml
