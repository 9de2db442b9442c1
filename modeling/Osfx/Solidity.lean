import Osfx.Sizes

/-!
# Checksums

`osfx_crc8` and `osfx_crc16_ccitt` of `osfx_solidity.c`, bit by bit as the code
computes them.
-/

namespace Osfx

def crc8Bit (poly : UInt16) (crc : UInt8) : UInt8 :=
  if crc &&& 0x80 ≠ 0 then (crc <<< 1) ^^^ poly.toUInt8 else crc <<< 1

def crc8Byte (poly : UInt16) (crc b : UInt8) : UInt8 :=
  Nat.repeat (crc8Bit poly) 8 (crc ^^^ b)

def crc8 (data : Bytes) (poly : UInt16) (init : UInt8) : UInt8 :=
  data.foldl (crc8Byte poly) init

def crc16Bit (poly crc : UInt16) : UInt16 :=
  if crc &&& 0x8000 ≠ 0 then (crc <<< 1) ^^^ poly else crc <<< 1

def crc16Byte (poly crc : UInt16) (b : UInt8) : UInt16 :=
  Nat.repeat (crc16Bit poly) 8 (crc ^^^ (b.toUInt16 <<< 8))

def crc16Ccitt (data : Bytes) (poly init : UInt16) : UInt16 :=
  data.foldl (crc16Byte poly) init

end Osfx
