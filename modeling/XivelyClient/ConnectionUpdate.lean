import XivelyClient.ConnectionData

/-! The update of the stored connection data string by string, each copy asking for memory of its own, and
when it leaves what a fresh allocation would have made. -/
namespace XivelyClient

/-- The strings of the connection data, in the order of the update. -/
inductive ConnectionString
  | host | username | password | willTopic | willMessage
  deriving DecidableEq, Repr

namespace ConnectionString

def order : List ConnectionString := [host,username,password,willTopic,willMessage]

theorem mem_order (which : ConnectionString) : which ∈ order := by
  cases which <;> decide

theorem order_nodup : order.Nodup := by
  decide

end ConnectionString

def ConnectionRequest.string (request : ConnectionRequest) : ConnectionString → Option (List UInt8)
  | .host => request.host
  | .username => request.username
  | .password => request.password
  | .willTopic => request.willTopic
  | .willMessage => request.willMessage

namespace ConnectionData

def setString (data : ConnectionData) (value : Option (List UInt8)) : ConnectionString → ConnectionData
  | .host => {data with host := value}
  | .username => {data with username := value}
  | .password => {data with password := value}
  | .willTopic => {data with willTopic := value}
  | .willMessage => {data with willMessage := value}

/-- `if ( NULL != given && strcmp( given, stored ) != 0 )`: free, copy, check. A refused copy leaves NULL
where the stored string was. -/
def replaceString (granted : Bool) (stored given : Option (List UInt8)) : Option (XiState × Option (List UInt8)) :=
  match given,stored with
  | none,stored => some (.ok,stored)
  | some _,none => none
  | some given,some stored =>
    if given = stored then some (.ok,some stored)
    else if granted then some (.ok,some given)
    else some (.outOfMemory,none)

def updateStrings (allocates : ConnectionString → Bool) (request : ConnectionRequest) :
    List ConnectionString → ConnectionData → Option (XiState × ConnectionData)
  | [],data => some (.ok,data)
  | which :: rest,data =>
    match replaceString (allocates which) (data.string which) (request.string which) with
    | some (.ok,value) => updateStrings allocates request rest (data.setString value which)
    | some (state,value) => some (state,data.setString value which)
    | none => none

/-- The fields that are no strings, taken over when all strings are. -/
def takeNumbers (data : ConnectionData) (request : ConnectionRequest) : ConnectionData :=
  {data with
    port := request.port
    connectionTimeout := request.connectionTimeout
    keepaliveTimeout := request.keepaliveTimeout
    sessionType := request.sessionType
    willQos := request.willQos
    willRetain := request.willRetain}

/-- `xi_connection_data_update_lastwill`, with the answers of the allocator. -/
def connectionDataUpdateLastwill (allocates : ConnectionString → Bool) (data : ConnectionData)
    (request : ConnectionRequest) : Option (XiState × ConnectionData) :=
  match updateStrings allocates request ConnectionString.order data with
  | some (.ok,data') => some (.ok,data'.takeNumbers request)
  | other => other

/-- The caller resets the connection state after either way to the data. -/
def resetState (data : ConnectionData) : ConnectionData := {data with connectionState := .uninitialized}

/-- What the update owes its caller. -/
def RefreshesOrKeeps (data : ConnectionData) (request : ConnectionRequest) :
    Option (XiState × ConnectionData) → Prop
  | some (.ok,data') => data'.resetState = (allocLastwill request).resetState
  | some (_,data') => data' = data
  | none => False

@[simp] theorem string_setString (data : ConnectionData) (value : Option (List UInt8)) (which : ConnectionString) :
    (data.setString value which).string which = value := by
  cases which <;> rfl

theorem string_setString_of_ne (data : ConnectionData) (value : Option (List UInt8)) {which other : ConnectionString}
    (apart : other ≠ which) : (data.setString value which).string other = data.string other := by
  cases which <;> cases other <;> first | rfl | exact absurd rfl apart

@[simp] theorem string_takeNumbers (data : ConnectionData) (request : ConnectionRequest) (which : ConnectionString) :
    (data.takeNumbers request).string which = data.string which := by
  cases which <;> rfl

/-- With the numbers taken over, only the strings tell the data from a fresh one. -/
theorem takeNumbers_fresh_iff (data : ConnectionData) (request : ConnectionRequest) :
    (data.takeNumbers request).resetState = (allocLastwill request).resetState ↔
      ∀ which, data.string which = request.string which := by
  constructor
  · intro same which
    have strings : (data.takeNumbers request).string which = (allocLastwill request).string which := by
      have records := congrArg (fun d : ConnectionData => d.string which) same
      exact records
    rwa [string_takeNumbers] at strings
  · intro strings
    have host : data.host = request.host := strings .host
    have username : data.username = request.username := strings .username
    have password : data.password = request.password := strings .password
    have willTopic : data.willTopic = request.willTopic := strings .willTopic
    have willMessage : data.willMessage = request.willMessage := strings .willMessage
    simp only [takeNumbers,resetState,allocLastwill,host,username,password,willTopic,willMessage]

/-- A string is refreshed if both sides have one, or none, and one that differs finds memory. -/
theorem replaceString_takes_iff (granted : Bool) (stored given : Option (List UInt8)) :
    replaceString granted stored given = some (.ok,given) ↔ given.isSome = stored.isSome ∧ (given ≠ stored → granted = true) := by
  cases given with
  | none => cases stored <;> simp [replaceString]
  | some given =>
    cases stored with
    | none => simp [replaceString]
    | some stored =>
      by_cases same : given = stored
      · simp [replaceString,same]
      · cases granted <;> simp [replaceString,same]

theorem replaceString_error {granted : Bool} {stored given value : Option (List UInt8)} {state : XiState}
    (replaced : replaceString granted stored given = some (state,value)) (failed : state ≠ .ok) :
    stored ≠ none ∧ value = none := by
  cases given with
  | none =>
    cases replaced
    exact absurd rfl failed
  | some given =>
    cases stored with
    | none => cases replaced
    | some stored =>
      simp only [replaceString] at replaced
      split_ifs at replaced
      · cases replaced
        exact absurd rfl failed
      · cases replaced
        exact absurd rfl failed
      · cases replaced
        exact ⟨by simp,rfl⟩

section Strings

variable {allocates : ConnectionString → Bool} {request : ConnectionRequest}

/-- The strings of a run of replacements that all went well. -/
theorem updateStrings_ok {strings : List ConnectionString} {data data' : ConnectionData} (distinct : strings.Nodup)
    (updated : updateStrings allocates request strings data = some (.ok,data')) (which : ConnectionString) :
    (which ∉ strings → data'.string which = data.string which) ∧
      (which ∈ strings → replaceString (allocates which) (data.string which) (request.string which) =
        some (.ok,data'.string which)) := by
  induction strings generalizing data with
  | nil =>
    cases updated
    exact ⟨fun _ => rfl,fun member => absurd member (by simp)⟩
  | cons first rest ih =>
    obtain ⟨fresh,distinct⟩ := List.nodup_cons.mp distinct
    simp only [updateStrings] at updated
    split at updated
    · rename_i value replaced
      obtain ⟨outside,inside⟩ := ih distinct updated
      by_cases same : which = first
      · subst same
        refine ⟨fun missing => absurd List.mem_cons_self missing,fun _ => ?_⟩
        rw [outside fresh,string_setString]
        exact replaced
      · have kept := string_setString_of_ne data value same
        rw [kept] at outside inside
        refine ⟨fun missing => outside (fun member => missing (List.mem_cons_of_mem _ member)),fun member => ?_⟩
        exact inside ((List.mem_cons.mp member).resolve_left same)
    · rename_i failed _
      cases updated
      exact absurd rfl failed
    · cases updated

/-- Where a run of replacements stops, a string that was stored is gone. -/
theorem updateStrings_error {strings : List ConnectionString} {data data' : ConnectionData} {state : XiState}
    (distinct : strings.Nodup) (updated : updateStrings allocates request strings data = some (state,data'))
    (failed : state ≠ .ok) : ∃ which ∈ strings, data.string which ≠ none ∧ data'.string which = none := by
  induction strings generalizing data with
  | nil =>
    cases updated
    exact absurd rfl failed
  | cons first rest ih =>
    obtain ⟨fresh,distinct⟩ := List.nodup_cons.mp distinct
    simp only [updateStrings] at updated
    split at updated
    · rename_i value _
      obtain ⟨which,member,stored,gone⟩ := ih distinct updated
      have apart : which ≠ first := by
        rintro rfl
        exact fresh member
      rw [string_setString_of_ne data value apart] at stored
      exact ⟨which,List.mem_cons_of_mem _ member,stored,gone⟩
    · rename_i replaced
      cases updated
      obtain ⟨stored,gone⟩ := replaceString_error replaced failed
      exact ⟨first,List.mem_cons_self,stored,by rw [string_setString,gone]⟩
    · cases updated

theorem updateStrings_total {strings : List ConnectionString} {data : ConnectionData} (distinct : strings.Nodup)
    (replaceable : ∀ which ∈ strings, ∃ value,
      replaceString (allocates which) (data.string which) (request.string which) = some (.ok,value)) :
    ∃ data', updateStrings allocates request strings data = some (.ok,data') := by
  induction strings generalizing data with
  | nil => exact ⟨data,rfl⟩
  | cons first rest ih =>
    obtain ⟨fresh,distinct⟩ := List.nodup_cons.mp distinct
    obtain ⟨value,replaced⟩ := replaceable first List.mem_cons_self
    obtain ⟨data',updated⟩ := @ih (data.setString value first) distinct (by
      intro which member
      have apart : which ≠ first := by
        rintro rfl
        exact fresh member
      rw [string_setString_of_ne data value apart]
      exact replaceable which (List.mem_cons_of_mem _ member))
    exact ⟨data',by simp only [updateStrings,replaced,updated]⟩

end Strings

/-- A run of replacements that fails is not one that keeps the data. -/
theorem not_kept_of_failed {data data' : ConnectionData} {state : XiState} {allocates : ConnectionString → Bool}
    {request : ConnectionRequest} (updated : updateStrings allocates request ConnectionString.order data = some (state,data'))
    (failed : state ≠ .ok) : ¬ RefreshesOrKeeps data request (some (state,data')) := by
  intro kept
  have same : data' = data := by
    cases state <;> first | exact kept | exact absurd rfl failed
  obtain ⟨lost,_,stored,gone⟩ := updateStrings_error ConnectionString.order_nodup updated failed
  rw [same] at gone
  exact stored gone

/-- The update is a fresh allocation exactly where the two sides have the same strings, and every one that
differs finds memory. -/
theorem connectionDataUpdateLastwill_iff (allocates : ConnectionString → Bool) (data : ConnectionData)
    (request : ConnectionRequest) :
    RefreshesOrKeeps data request (connectionDataUpdateLastwill allocates data request) ↔
      ∀ which : ConnectionString, (request.string which).isSome = (data.string which).isSome ∧
        (request.string which ≠ data.string which → allocates which = true) := by
  constructor
  · intro kept which
    rw [connectionDataUpdateLastwill] at kept
    split at kept
    · rename_i data' updated
      have same := (takeNumbers_fresh_iff data' request).mp kept which
      have replaced := (updateStrings_ok ConnectionString.order_nodup updated which).2 (ConnectionString.mem_order which)
      rw [same] at replaced
      exact (replaceString_takes_iff _ _ _).mp replaced
    · rename_i failed
      match updated : updateStrings allocates request ConnectionString.order data with
      | none =>
        rw [updated] at kept
        exact kept.elim
      | some (state,data') =>
        rw [updated] at kept
        have wrong : state ≠ .ok := by
          rintro rfl
          exact failed data' updated
        exact absurd kept (not_kept_of_failed updated wrong)
  · intro alike
    have takes (which : ConnectionString) := (replaceString_takes_iff _ _ _).mpr (alike which)
    obtain ⟨data',updated⟩ := updateStrings_total ConnectionString.order_nodup fun which _ => ⟨_,takes which⟩
    rw [connectionDataUpdateLastwill,updated]
    refine (takeNumbers_fresh_iff data' request).mpr fun which => ?_
    have replaced := (updateStrings_ok ConnectionString.order_nodup updated which).2 (ConnectionString.mem_order which)
    rw [takes which] at replaced
    exact (Prod.mk.inj (Option.some.inj replaced)).2.symm

/-- With memory for every copy the update is the one the contexts use. -/
theorem connectionDataUpdateLastwill_granted (data : ConnectionData) (request : ConnectionRequest) :
    connectionDataUpdateLastwill (fun _ => true) data request = (data.updateLastwill request).map ((.ok,·)) := by
  have replaced : ∀ stored given, replaceString true stored given = (updateString stored given).map ((.ok,·)) := by
    intro stored given
    cases given <;> cases stored <;> simp [replaceString,updateString,eq_comm]
  simp only [connectionDataUpdateLastwill,ConnectionString.order,updateStrings,replaced,updateLastwill]
  simp only [ConnectionData.setString,ConnectionRequest.string]
  cases updateString data.host request.host with
  | none => rfl
  | some host =>
  cases updateString data.username request.username with
  | none => rfl
  | some username =>
  cases updateString data.password request.password with
  | none => rfl
  | some password =>
  cases updateString data.willTopic request.willTopic with
  | none => rfl
  | some willTopic =>
  cases updateString data.willMessage request.willMessage with
  | none => rfl
  | some willMessage => rfl

/-- A connection made without credentials and then with a user name compares the name with NULL. -/
theorem connectionDataUpdateLastwill_null :
    connectionDataUpdateLastwill (fun _ => true) (allocLastwill {host := some [104]})
      {host := some [104],username := some [97]} = none ∧
    ¬ RefreshesOrKeeps (allocLastwill {host := some [104]}) {host := some [104],username := some [97]}
      (connectionDataUpdateLastwill (fun _ => true) (allocLastwill {host := some [104]})
        {host := some [104],username := some [97]}) := by
  have stopped : connectionDataUpdateLastwill (fun _ => true) (allocLastwill {host := some [104]})
      {host := some [104],username := some [97]} = none := by decide
  rw [stopped]
  exact ⟨rfl,fun kept => kept⟩

end ConnectionData

end XivelyClient
