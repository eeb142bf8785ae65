import ChainLab.Core.Fees

/-! The base fee of the next block. -/

namespace ChainLab.Core

open ChainLab.Lib ChainLab.Types

def baseFeeChangeDenominator : UInt64 := 8

/-- `bits.Mul64`: the high and the low half of a product. -/
def mul64 (x y : UInt64) : UInt64 × UInt64 := (UInt64.ofNat (x.toNat * y.toNat / 2 ^ 64), x * y)

/-- The quotient of `bits.Div64`, which panics unless `hi < y`. Both calls below pass a remainder modulo `y`. -/
def div64 (hi lo y : UInt64) : UInt64 := UInt64.ofNat ((hi.toNat * 2 ^ 64 + lo.toNat) / y.toNat)

/-- `BaseFeeChange`. -/
def baseFeeChange (baseFee gasDelta gasTarget denominator : UInt64) : UInt64 :=
  if gasTarget = 0 ∨ denominator = 0 ∨ baseFee = 0 ∨ gasDelta = 0 then 0
  else
    let product := mul64 baseFee gasDelta
    let quotientHigh := product.1 / gasTarget
    let quotientLow := div64 (product.1 % gasTarget) product.2 gasTarget
    let resultLow := div64 (quotientHigh % denominator) quotientLow denominator
    if quotientHigh / denominator ≠ 0 then maxUint64 else resultLow

/-- `NextBaseFee`. -/
def nextBaseFee (parentBaseFee parentGasUsed gasLimit : UInt64) : UInt64 :=
  let parentBaseFee := if parentBaseFee = 0 then initialBaseFeePerGas else parentBaseFee
  let gasLimit := if gasLimit = 0 then defaultBlockGasLimit else gasLimit
  let target := if gasLimit / 2 = 0 then 1 else gasLimit / 2
  if parentGasUsed = target then parentBaseFee
  else if parentGasUsed > target then
    let change := baseFeeChange parentBaseFee (parentGasUsed - target) target baseFeeChangeDenominator
    let increase := if change = 0 then 1 else change
    if maxUint64 - parentBaseFee < increase then maxUint64 else parentBaseFee + increase
  else
    let decrease := baseFeeChange parentBaseFee (target - parentGasUsed) target baseFeeChangeDenominator
    if decrease ≥ parentBaseFee then initialBaseFeePerGas
    else if parentBaseFee - decrease < initialBaseFeePerGas then initialBaseFeePerGas
    else parentBaseFee - decrease

end ChainLab.Core
