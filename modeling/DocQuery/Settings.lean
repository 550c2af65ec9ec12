import DocQuery.Error

/-!
# Connection settings

Where a database server is found, as whom to connect and which database to use. What a connection
string says is read by the client of the server, which the program brings along.
-/

namespace DocQuery

/-- A host, and a port unless the usual one is meant. -/
structure HostAddress where
  host : String
  port : Option UInt16
deriving DecidableEq

/-- Where and as whom to connect. -/
structure Settings where
  hosts : List HostAddress
  user : Option String
  database : Option String
  /-- The name reported to the server. -/
  appName : Option String
deriving DecidableEq

/-- What a client reads from a connection string. -/
structure ClientOptions where
  hosts : List HostAddress
  user : Option String
  defaultDatabase : Option String
  appName : Option String
deriving DecidableEq

namespace Settings

/-- Settings for the given hosts. -/
def ofHosts (hosts : List HostAddress) : Settings := ⟨hosts, none, none, none⟩

/-- Settings for a server on this machine at the usual port. -/
def localhost : Settings := ofHosts [⟨"127.0.0.1", some 27017⟩]

instance : Inhabited Settings := ⟨localhost⟩

def withHost (host : String) (port : Option UInt16) (s : Settings) : Settings :=
  { s with hosts := s.hosts ++ [⟨host, port⟩] }

def withUser (user : String) (s : Settings) : Settings := { s with user := some user }

def withDatabase (name : String) (s : Settings) : Settings := { s with database := some name }

def withAppName (name : String) (s : Settings) : Settings := { s with appName := some name }

/-- The settings that a connection string stands for, as the client reads it. -/
def parse (read? : String → Option ClientOptions) (s : String) : Except Error Settings :=
  match read? s with
  | some o => .ok ⟨o.hosts, o.user, o.defaultDatabase, o.appName⟩
  | none => .error .malformedConnectionString

/-- The database, if the settings lead to one; missing hosts are reported first. -/
def validate (s : Settings) : Except Error String :=
  match s.hosts, s.database with
  | [], _ => .error .missingHosts
  | _ :: _, none => .error .noTargetDatabase
  | _ :: _, some name => .ok name

end Settings

end DocQuery
