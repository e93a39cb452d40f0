import CountAlarm.Document
/-!
# Tables under construction

While a TOML text is read its tables grow: by headers, by lists of tables and by dotted keys. A
table remembers how it came about, because only a table that no header has named yet may be named
by one, and only one that dotted keys made may be extended by them.
-/

namespace CountAlarm.Toml

/-- How a table came about. -/
inductive Origin where
  /-- A header, or the text as a whole. -/
  | header
  /-- It is above a table that a header names. -/
  | ancestor
  /-- Dotted keys lead through it. -/
  | dotted
deriving DecidableEq

/-- What stands under a key: a value, a table, or a list of tables, each the members of one. -/
inductive Entry where
  | value (d : Document)
  | table (origin : Origin) (members : List (String × Entry))
  | tables (elements : List (List (String × Entry)))

structure Table where
  origin : Origin
  members : List (String × Entry)

namespace Table

def get? (t : Table) (key : String) : Option Entry :=
  (t.members.find? fun m => m.1 == key).map Prod.snd

/-- Replaces the entry under a key, or appends one. -/
def put (t : Table) (key : String) (entry : Entry) : Table :=
  if t.members.any fun m => m.1 == key then
    { t with members := t.members.map fun m => if m.1 == key then (key, entry) else m }
  else { t with members := t.members ++ [(key, entry)] }

/-- Changes the table that a path leads to, starting from this one. Missing tables are made with the
origin `made`; a list of tables stands for its last element. Where dotted keys lead, a table
that a header named may not be entered. -/
def change? (made : Origin) (f : Table → Option Table) : List String → Table → Option Table
  | [], t => f t
  | key :: path, t =>
    match t.get? key with
    | none => do
      let inner ← change? made f path ⟨made, []⟩
      some (t.put key (.table inner.origin inner.members))
    | some (.value _) => none
    | some (.table origin members) =>
      if made = .dotted ∧ origin = .header then none
      else do
        let inner ← change? made f path ⟨origin, members⟩
        some (t.put key (.table inner.origin inner.members))
    | some (.tables elements) =>
      match elements.getLast? with
      | none => none
      | some last => do
        let inner ← change? made f path ⟨.header, last⟩
        some (t.put key (.tables (elements.dropLast ++ [inner.members])))

/-- Adds a value under a key of several parts. The parts before the last lead through tables that
dotted keys made. -/
def addValue? (t : Table) (key : List String) (d : Document) : Option Table :=
  match key.getLast? with
  | none => none
  | some last =>
    let path := key.dropLast
    t.change? .dotted (fun inner =>
      if inner.origin = .dotted ↔ path = [] then none
      else if (inner.get? last).isSome then none
      else some (inner.put last (.value d))) path

def addTable? (t : Table) (key : List String) : Option Table :=
  match key.getLast? with
  | none => none
  | some last =>
    t.change? .ancestor (fun inner =>
      match inner.get? last with
      | none => some (inner.put last (.table .header []))
      | some (.table .ancestor members) => some (inner.put last (.table .header members))
      | some _ => none) key.dropLast

def addElement? (t : Table) (key : List String) : Option Table :=
  match key.getLast? with
  | none => none
  | some last =>
    t.change? .ancestor (fun inner =>
      match inner.get? last with
      | none => some (inner.put last (.tables [[]]))
      | some (.tables elements) => some (inner.put last (.tables (elements ++ [[]])))
      | some _ => none) key.dropLast

/-- Adds a value below the table that a header named last. -/
def addBelow? (t : Table) (header key : List String) (d : Document) : Option Table :=
  t.change? .ancestor (fun inner => inner.addValue? key d) header

end Table

/-! ## Finished tables -/

mutual

def Entry.toDocument : Entry → Document
  | .value d => d
  | .table _ members => .table (finishMembers members)
  | .tables elements => .array (finishElements elements)

def finishMembers : List (String × Entry) → List (String × Document)
  | [] => []
  | m :: ms => (m.1, m.2.toDocument) :: finishMembers ms

def finishElements : List (List (String × Entry)) → List Document
  | [] => []
  | members :: rest => .table (finishMembers members) :: finishElements rest

end

def Table.toDocument (t : Table) : Document :=
  .table (finishMembers t.members)

end CountAlarm.Toml
