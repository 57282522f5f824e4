import Cpu6502.Bus.Mapped
import Cpu6502.Bus.Traced
import Cpu6502.Machine.Operation
import Cpu6502.Main
import Cpu6502.Proofs.Accounting
import Cpu6502.Proofs.BusDiscipline
import Cpu6502.Proofs.Cycle
import Cpu6502.Proofs.Dump
import Cpu6502.Proofs.EffectiveAddress
import Cpu6502.Proofs.Exchange
import Cpu6502.Proofs.Halt
import Cpu6502.Proofs.ImageEnd
import Cpu6502.Proofs.Log
import Cpu6502.Proofs.Moments
import Cpu6502.Proofs.Report
import Cpu6502.Proofs.Restart
import Cpu6502.Proofs.Results
import Cpu6502.Proofs.StoreLoad
import Cpu6502.Proofs.Stores
import Cpu6502.Proofs.Words
