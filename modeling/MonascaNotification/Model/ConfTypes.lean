import MonascaNotification.Python.Integer

/-!
# `conf/types.py`

`HostAddressPortType`, the type of the `url` options of Kafka and of Zookeeper. The parser and the
types that it is made of are those of `oslo`, and a parameter.
-/

namespace MonascaNotification

/-- What `conf/types.py` calls. The last three are the types of an option of that kind. -/
structure Oslo where
  /-- `netutils.parse_host_port` -/
  parseHostPort : String → Except PyExn (Option String × Option Int)
  /-- `types.IPAddress(version)` -/
  ipAddress : Option String → Except PyExn String
  /-- `types.Hostname()` -/
  hostname : Option String → Except PyExn String
  /-- `types.Port()` -/
  port : Option Int → Except PyExn Int

namespace HostAddressPortType

variable (O : Oslo)

/-- `_validate_port`. -/
def validatePort (port : Option Int) : Except PyExn Int := O.port port

/-- `_validate_addr`: only a `ValueError` leads to the next attempt. -/
def validateAddr (addr : Option String) : Except PyExn String :=
  match O.ipAddress addr with
  | .error .valueError => O.hostname addr
  | result => result

/-- `HostAddressPortType.__call__`. -/
def call (value : String) : Except PyExn String := do
  let (addr, port) ← O.parseHostPort value
  let addr ← validateAddr O addr
  let port ← validatePort O port
  if addr ≠ "" ∧ port ≠ 0 then
    return addr ++ ":" ++ toString port
  throw .valueError

end HostAddressPortType

end MonascaNotification
